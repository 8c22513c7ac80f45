import StatsRelay.Document

/-! Documents of values. They hold the values that they were made from, and no other document holds
these. -/
namespace StatsRelay

open StatsRelay.Json (Value)

namespace Document

mutual

theorem value?_ofValue : (value : Value) → (ofValue value).value? = some value
  | .null => rfl
  | .bool _ => rfl
  | .number _ => rfl
  | .string _ => rfl
  | .array items => by simp [ofValue, value?, itemValues?_ofItems items]
  | .object members => by simp [ofValue, value?, memberValues?_ofMembers members]

theorem itemValues?_ofItems : (items : List Value) → itemValues? (ofItems items) = some items
  | [] => rfl
  | item :: rest => by
    simp [ofItems, itemValues?, value?_ofValue item, itemValues?_ofItems rest]

theorem memberValues?_ofMembers :
    (members : List (String × Value)) → memberValues? (ofMembers members) = some members
  | [] => rfl
  | (name, value) :: rest => by
    simp [ofMembers, memberValues?, value?_ofValue value, memberValues?_ofMembers rest]

end

section

variable (room : Nat)

@[simp] theorem bounded_null : bounded room null = null := by cases room <;> rfl

@[simp] theorem bounded_bool (value : Bool) : bounded room (bool value) = bool value := by
  cases room <;> rfl

@[simp] theorem bounded_number (n : Option Json.Number) :
    bounded room (number n) = number n := by
  cases room <;> rfl

@[simp] theorem bounded_string (text : Option String) : bounded room (string text) = string text := by
  cases room <;> rfl

end

mutual

/-- A document that holds a value is the document of that value. -/
theorem eq_ofValue : (document : Document) → {value : Value} → document.value? = some value →
    document = ofValue value
  | .null, _, found | .bool _, _, found => by
    cases found
    rfl
  | .number _, _, found | .string _, _, found => by
    obtain ⟨_, rfl, rfl⟩ := Option.map_eq_some_iff.mp found
    rfl
  | .array items, _, found => by
    obtain ⟨values, held, rfl⟩ := Option.map_eq_some_iff.mp found
    rw [ofValue, eq_ofItems items held]
  | .object members, _, found => by
    obtain ⟨values, held, rfl⟩ := Option.map_eq_some_iff.mp found
    rw [ofValue, eq_ofMembers members held]
  | .moment, _, found | .fault, _, found => nomatch found

theorem eq_ofItems : (items : List Document) → {values : List Value} →
    itemValues? items = some values → items = ofItems values
  | [], _, found => by
    cases found
    rfl
  | item :: rest, _, found => by
    simp only [itemValues?, Option.bind_eq_bind, Option.bind_eq_some_iff] at found
    obtain ⟨value, here, values, there, same⟩ := found
    cases same
    rw [ofItems, ← eq_ofValue item here, ← eq_ofItems rest there]

theorem eq_ofMembers : (members : List (Option String × Document)) →
    {values : List (String × Value)} → memberValues? members = some values →
      members = ofMembers values
  | [], _, found => by
    cases found
    rfl
  | (name, document) :: rest, _, found => by
    simp only [memberValues?, Option.bind_eq_bind, Option.bind_eq_some_iff] at found
    obtain ⟨name, rfl, value, here, values, there, same⟩ := found
    cases same
    rw [ofMembers, ← eq_ofValue document here, ← eq_ofMembers rest there]

end

theorem ofItems_eq_map (items : List Value) : ofItems items = items.map ofValue := by
  induction items with
  | nil => rfl
  | cons item rest ih => rw [ofItems, ih, List.map_cons]

theorem ofMembers_eq_map (members : List (String × Value)) :
    ofMembers members = members.map fun member => (some member.1, ofValue member.2) := by
  induction members with
  | nil => rfl
  | cons member rest ih => rw [ofMembers, ih, List.map_cons]

theorem names_ofMembers (members : List (String × Value)) :
    (ofMembers members).map (·.1) = (members.map (·.1)).map some := by
  simp [ofMembers_eq_map, Function.comp_def]

theorem names_memberValues? {members : List (Option String × Document)}
    {values : List (String × Value)} (found : memberValues? members = some values) :
    members.map (·.1) = (values.map (·.1)).map some := by
  induction members generalizing values with
  | nil =>
    cases found
    rfl
  | cons member rest ih =>
    obtain ⟨name, document⟩ := member
    simp only [memberValues?, Option.bind_eq_bind, Option.bind_eq_some_iff] at found
    obtain ⟨text, rfl, value, _, others, held, same⟩ := found
    cases same
    rw [List.map_cons, ih held]
    rfl

theorem names_nodup {members : List (String × Value)} (distinct : (members.map (·.1)).Nodup) :
    ((ofMembers members).map (·.1)).Nodup := by
  rw [names_ofMembers]
  refine List.Pairwise.map some (fun first second different same => ?_) distinct
  exact different (Option.some.inj same)

end Document

theorem Json.Value.normalMembers_eq_map (members : List (String × Value)) :
    Value.normalMembers members = members.map fun member => (member.1, member.2.normal) := by
  induction members with
  | nil => rfl
  | cons member rest ih => rw [Value.normalMembers, ih, List.map_cons]

end StatsRelay
