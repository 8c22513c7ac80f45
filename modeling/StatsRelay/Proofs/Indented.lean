import StatsRelay.Proofs.Codecs
import StatsRelay.Proofs.Compact

/-! Values over several lines. Line ends and indents are blanks, so what is written denotes the value
as it does on one line. -/
namespace StatsRelay.Json

theorem newLine_blank (level : Nat) : Blank (Value.newLine level) := by
  intro c c_mem
  rcases List.mem_cons.mp c_mem with rfl | space
  · rfl
  · obtain rfl := List.eq_of_mem_replicate space
    rfl

private theorem space_blank : Blank [' '] := by
  intro c c_mem
  obtain rfl := List.mem_singleton.mp c_mem
  rfl

section

variable {room level : Nat} {found : Value → Document}

theorem denotes_indentedItems {item : Value} {items : List Value}
    (each : ∀ item' ∈ item :: items, Denotes room (item'.writeIndented (level + 1)) (found item')) :
    DenotesItems room (item.writeIndented (level + 1) ++ Value.indentedItems level items)
      ((item :: items).map found) := by
  induction items generalizing item with
  | nil => exact .last (each item List.mem_cons_self) (newLine_blank level)
  | cons next items ih =>
    obtain ⟨first, others⟩ := List.forall_mem_cons.mp each
    have denotes := DenotesItems.more first blank_nil (newLine_blank (level + 1)) (ih others)
    simpa [Value.indentedItems] using denotes

theorem denotes_indentedMembers {name : String} {value : Value} {members : List (String × Value)}
    (each : ∀ member ∈ (name, value) :: members,
      Denotes room (member.2.writeIndented (level + 1)) (found member.2)) :
    DenotesMembers room (writeString name ++ ':' :: ([' '] ++
      (value.writeIndented (level + 1) ++ Value.indentedMembers level members)))
      (((name, value) :: members).map fun member => (some member.1, found member.2)) := by
  induction members generalizing name value with
  | nil =>
    exact .last name space_blank (each _ List.mem_cons_self) (newLine_blank level)
  | cons next members ih =>
    obtain ⟨first, others⟩ := List.forall_mem_cons.mp each
    have denotes := DenotesMembers.more name space_blank first blank_nil
      (newLine_blank (level + 1)) (ih others)
    simpa [Value.indentedMembers] using denotes

end

/-- A value at any level of indent denotes the value, as far as each number denotes itself. -/
theorem Value.Nested.denotes_writeIndented {found : Value → Document} (mirrors : Mirrors found)
    {Good : Number → Prop}
    (numbers : ∀ n, Good n → ∀ room, Denotes room n.write (found (.number n)))
    {room : Nat} {value : Value} (nested : value.Nested Good room) (level : Nat) :
    Denotes room (value.writeIndented level) (found value) := by
  induction nested generalizing level with
  | null => exact mirrors.null ▸ .null
  | bool value =>
    rw [mirrors.bool]
    cases value with
    | false => exact .bool false
    | true => exact .bool true
  | number good => exact numbers _ good _
  | string text => exact mirrors.string text ▸ .string text
  | @array room items each ih =>
    rw [mirrors.array]
    cases items with
    | nil => exact .emptyArray
    | cons item items =>
      have parts := denotes_indentedItems fun item item_mem => ih item item_mem (level + 1)
      have denotes := Denotes.array (newLine_blank (level + 1)) parts
      simpa [Value.writeIndented] using denotes
  | @object room members each ih =>
    rw [mirrors.object]
    cases members with
    | nil => exact .emptyObject
    | cons member members =>
      have parts := denotes_indentedMembers fun member member_mem => ih member member_mem (level + 1)
      have denotes := Denotes.object (newLine_blank (level + 1)) parts
      simpa [Value.writeIndented] using denotes

theorem Value.Legible.denotes_writeIndented {room : Nat} {value : Value}
    (legible : value.Legible room) (level : Nat) :
    Denotes room (value.writeIndented level) (.ofValue value) :=
  legible.nested.denotes_writeIndented mirrors_ofValue (fun _ => Number.Legible.denotes) level

/-- A line end after a text changes nothing. -/
theorem read_line_of_denotes {text : String} {document : Document}
    (denotes : Denotes nestingLimit text.toList document) :
    Json.read (text ++ "\n") = ⟨document, true⟩ := by
  have newline : Literal.Ends ['\n'] := by
    intro c first
    obtain rfl := Option.some.inj first
    decide
  have blank : Blank ['\n'] := List.forall_mem_singleton.mpr rfl
  have read := read_of_denotes_append denotes newline blank
  rwa [String.ofList_append, String.ofList_toList] at read

/-- The text of a value is read as its document, also with a line end after it. -/
theorem read_pretty {value : Value} (legible : value.Legible nestingLimit) :
    Json.read (value.pretty ++ "\n") = ⟨.ofValue value, true⟩ := by
  apply read_line_of_denotes
  rw [Value.pretty, String.toList_ofList]
  exact legible.denotes_writeIndented 0

theorem decode_pretty {α : Type} {codec : Codec α} {value : α}
    (faithful : codec.Faithful .ofValue value)
    (legible : (codec.write value).Legible nestingLimit) :
    codec.decode ((codec.write value).pretty ++ "\n") = .ok value := by
  rw [Codec.decode_ok_iff, read_pretty legible]
  exact ⟨faithful, rfl⟩

end StatsRelay.Json
