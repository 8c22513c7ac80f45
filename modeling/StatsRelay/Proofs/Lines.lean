import Mathlib.Data.List.DropRight
import StatsRelay.Text.Blank
import StatsRelay.Text.Lines

/-! Lines and the segments between newlines. The lines of some octets are their segments, each with
the newline that ends it; a last segment that is empty is no line. -/
namespace StatsRelay.Text

namespace Lines

/-- Octets have no newline, or are a line and what follows it. -/
theorem lineInduction {motive : List UInt8 → Prop}
    (last : ∀ body, newline ∉ body → motive body)
    (line : ∀ body rest, newline ∉ body → motive rest → motive (body ++ newline :: rest))
    (bytes : List UInt8) : motive bytes := by
  -- What stands before the next newline is gathered octet by octet.
  have prefixed (body : List UInt8) (noNewline : newline ∉ body) : motive (body ++ bytes) := by
    induction bytes generalizing body with
    | nil => simpa using last body noNewline
    | cons octet rest ih =>
      by_cases found : octet = newline
      · subst found
        exact line body rest noNewline (ih [] (by simp))
      · have longer := ih (body ++ [octet]) (by simp [noNewline, Ne.symm found])
        simpa using longer
  exact prefixed [] (by simp)

theorem next_body {body : List UInt8} (noNewline : newline ∉ body) : next body = (body, []) := by
  induction body with
  | nil => rfl
  | cons octet rest ih =>
    obtain ⟨other, noNewline⟩ : newline ≠ octet ∧ newline ∉ _ := by simpa using noNewline
    rw [next, if_neg (Ne.symm other), ih noNewline]

theorem next_line {body : List UInt8} (noNewline : newline ∉ body) (rest : List UInt8) :
    next (body ++ newline :: rest) = (body ++ [newline], rest) := by
  induction body with
  | nil => simp [next]
  | cons octet body ih =>
    obtain ⟨other, noNewline⟩ : newline ≠ octet ∧ newline ∉ _ := by simpa using noNewline
    rw [List.cons_append, next, if_neg (Ne.symm other), ih noNewline]
    rfl

theorem next_append_rest (bytes : List UInt8) : (next bytes).1 ++ (next bytes).2 = bytes := by
  induction bytes with
  | nil => rfl
  | cons octet rest ih =>
    by_cases found : octet = newline
    · simp [next, found]
    · simpa [next, found] using ih

theorem next_eq_nil_iff {bytes : List UInt8} : (next bytes).1 = [] ↔ bytes = [] := by
  cases bytes with
  | nil => exact iff_of_true rfl rfl
  | cons octet rest => by_cases found : octet = newline <;> simp [next, found]

theorem split_body {body : List UInt8} (noNewline : newline ∉ body) :
    split body = if body = [] then [] else [body] := by
  induction body with
  | nil => rfl
  | cons octet rest ih =>
    obtain ⟨other, noNewline⟩ : newline ≠ octet ∧ newline ∉ _ := by simpa using noNewline
    rw [split, if_neg (Ne.symm other), ih noNewline]
    cases rest <;> simp

theorem split_line {body : List UInt8} (noNewline : newline ∉ body) (rest : List UInt8) :
    split (body ++ newline :: rest) = (body ++ [newline]) :: split rest := by
  induction body with
  | nil => simp [split]
  | cons octet body ih =>
    obtain ⟨other, noNewline⟩ : newline ≠ octet ∧ newline ∉ _ := by simpa using noNewline
    rw [List.cons_append, split, if_neg (Ne.symm other), ih noNewline]
    rfl

def unfinished (bytes : List UInt8) : List UInt8 := bytes.drop (finished bytes).length

theorem finished_body {body : List UInt8} (noNewline : newline ∉ body) : finished body = [] := by
  rw [finished, split_body noNewline]
  split
  · rfl
  · have open' : (body.getLast? == some newline) = false :=
      beq_eq_false_iff_ne.mpr fun ended => noNewline (List.mem_of_getLast? ended)
    simp [open']

theorem finished_line {body : List UInt8} (noNewline : newline ∉ body) (rest : List UInt8) :
    finished (body ++ newline :: rest) = body ++ newline :: finished rest := by
  rw [finished, split_line noNewline, List.filter_cons_of_pos (by simp), List.flatten_cons,
    List.append_assoc]
  rfl

theorem exists_unfinished (bytes : List UInt8) :
    (∃ tail, finished bytes ++ tail = bytes ∧ newline ∉ tail) ∧
      (finished bytes = [] ∨ (finished bytes).getLast? = some newline) := by
  induction bytes using lineInduction with
  | last body noNewline =>
    rw [finished_body noNewline]
    exact ⟨⟨body, rfl, noNewline⟩, .inl rfl⟩
  | line body rest noNewline ih =>
    obtain ⟨⟨tail, whole, noNewline'⟩, ended⟩ := ih
    rw [finished_line noNewline]
    refine ⟨⟨tail, by simp [whole], noNewline'⟩, .inr ?_⟩
    rw [List.getLast?_append_cons, List.getLast?_cons]
    rcases ended with none | closed
    · simp [none]
    · simp [closed]

theorem prefix_of_ended {kept tail other : List UInt8} (noNewline : newline ∉ tail)
    (first : other <+: kept ++ tail) (ended : other.getLast? = some newline) : other <+: kept := by
  rcases List.prefix_or_prefix_of_prefix first (List.prefix_append kept tail) with
    within | ⟨more, rfl⟩
  · exact within
  · have beyond : more <+: tail := (List.prefix_append_right_inj kept).mp first
    cases more with
    | nil => simp
    | cons octet rest =>
      rw [List.getLast?_append_cons] at ended
      exact absurd (beyond.subset (List.mem_of_getLast? ended)) noNewline

/-- What is left is the longest beginning that ends with a newline, if there is one. -/
theorem finished_longest {bytes other : List UInt8} (first : other <+: bytes)
    (ended : other.getLast? = some newline) : other <+: finished bytes := by
  obtain ⟨⟨tail, whole, noNewline⟩, _⟩ := exists_unfinished bytes
  exact prefix_of_ended noNewline (whole.symm ▸ first) ended

theorem split_next {bytes : List UInt8} (nonempty : (next bytes).1 ≠ []) :
    split bytes = (next bytes).1 :: split (next bytes).2 := by
  induction bytes using lineInduction with
  | last body noNewline =>
    rw [next_body noNewline] at nonempty ⊢
    rw [split_body noNewline, if_neg nonempty]
    rfl
  | line body rest noNewline _ => rw [next_line noNewline, split_line noNewline]

theorem length_split_le (bytes : List UInt8) : (split bytes).length ≤ bytes.length := by
  induction bytes using lineInduction with
  | last body noNewline =>
    rw [split_body noNewline]
    split
    · exact Nat.zero_le _
    · rename_i nonempty
      exact List.length_pos_of_ne_nil nonempty
  | line body rest noNewline ih =>
    rw [split_line noNewline, List.length_cons, List.length_append, List.length_cons]
    omega

/-- Octets are whole lines and what does not end with one. -/
theorem exists_lines (bytes : List UInt8) :
    ∃ (lines : List (List UInt8)) (tail : List UInt8), bytes = lines.flatten ++ tail ∧
      (∀ line ∈ lines, ∃ body, newline ∉ body ∧ line = body ++ [newline]) ∧ newline ∉ tail ∧
        (split bytes).length = lines.length + if tail = [] then 0 else 1 := by
  induction bytes using lineInduction with
  | last body noNewline =>
    refine ⟨[], body, rfl, List.forall_mem_nil _, noNewline, ?_⟩
    rw [split_body noNewline]
    split <;> simp
  | line body rest noNewline ih =>
    obtain ⟨lines, tail, cut, whole, noNewline', count⟩ := ih
    refine ⟨(body ++ [newline]) :: lines, tail, ?_,
      List.forall_mem_cons.mpr ⟨⟨body, noNewline, rfl⟩, whole⟩, noNewline', ?_⟩
    · rw [List.flatten_cons, List.append_assoc, ← cut, List.append_cons]
    · rw [split_line noNewline, List.length_cons, count, List.length_cons]
      omega

theorem split_flatten {lines : List (List UInt8)}
    (ended : ∀ line ∈ lines, ∃ body, newline ∉ body ∧ line = body ++ [newline]) :
    split lines.flatten = lines := by
  induction lines with
  | nil => rfl
  | cons line rest ih =>
    obtain ⟨body, noNewline, rfl⟩ := ended line (by simp)
    have others := ih fun line member => ended line (by simp [member])
    rw [List.flatten_cons, List.append_assoc, List.singleton_append, split_line noNewline, others]

section

variable {lines : List (List UInt8)} {tail : List UInt8}
  (ended : ∀ line ∈ lines, ∃ body, newline ∉ body ∧ line = body ++ [newline])
  (noNewline : newline ∉ tail)
include ended noNewline

theorem finished_flatten : finished (lines.flatten ++ tail) = lines.flatten := by
  induction lines with
  | nil => exact finished_body noNewline
  | cons line rest ih =>
    obtain ⟨⟨body, noNewline', rfl⟩, others⟩ := List.forall_mem_cons.mp ended
    rw [List.flatten_cons, List.append_assoc, List.append_assoc, List.singleton_append,
      finished_line noNewline', ih others, ← List.append_cons]

theorem unfinished_flatten : unfinished (lines.flatten ++ tail) = tail := by
  rw [unfinished, finished_flatten ended noNewline, List.drop_left]

end

/-- What does not see the newline at the end of a line sees the same in lines and in segments, but
for the empty segment behind a last newline. -/
theorem map_splitOn {α : Type} (view : List UInt8 → α)
    (ends : ∀ segment, view (segment ++ [newline]) = view segment) (bytes : List UInt8) :
    (bytes.splitOn newline).map view = (split bytes).map view ∨
      (bytes.splitOn newline).map view = (split bytes).map view ++ [view []] := by
  induction bytes using lineInduction with
  | last body noNewline =>
    rw [List.splitOn_eq_singleton noNewline, split_body noNewline]
    by_cases none : body = [] <;> simp [none]
  | line body rest noNewline ih =>
    rw [List.splitOn_append_cons_self_of_not_mem noNewline, split_line noNewline]
    simpa [ends] using ih

/-- Segments as lines: each with the separator behind it, and the last one only if it is not empty. -/
def closed {α : Type} [DecidableEq α] (separator : α) : List (List α) → List (List α)
  | [] => []
  | [last] => if last = [] then [] else [last]
  | segment :: rest => (segment ++ [separator]) :: closed separator rest

theorem closed_cons {α : Type} [DecidableEq α] (separator : α) (segment : List α)
    {rest : List (List α)} (more : rest ≠ []) :
    closed separator (segment :: rest) = (segment ++ [separator]) :: closed separator rest := by
  cases rest with
  | nil => exact absurd rfl more
  | cons => rfl

theorem split_eq_closed (bytes : List UInt8) :
    split bytes = closed newline (bytes.splitOn newline) := by
  induction bytes using lineInduction with
  | last body noNewline => rw [split_body noNewline, List.splitOn_eq_singleton noNewline, closed]
  | line body rest noNewline ih =>
    rw [split_line noNewline, List.splitOn_append_cons_self_of_not_mem noNewline,
      closed_cons newline body (List.splitOn_ne_nil newline rest), ih]

def withReturns (bytes : List UInt8) : List UInt8 :=
  bytes.flatMap fun octet => if octet = newline then [13, newline] else [octet]

theorem withReturns_body {body : List UInt8} (noNewline : newline ∉ body) :
    withReturns body = body := by
  induction body with
  | nil => rfl
  | cons octet rest ih =>
    obtain ⟨other, noNewline⟩ : newline ≠ octet ∧ newline ∉ _ := by simpa using noNewline
    change (if octet = newline then [13, newline] else [octet]) ++ withReturns rest = octet :: rest
    rw [if_neg (Ne.symm other), ih noNewline]
    rfl

theorem withReturns_line {body : List UInt8} (noNewline : newline ∉ body) (rest : List UInt8) :
    withReturns (body ++ newline :: rest) = (body ++ [13]) ++ newline :: withReturns rest := by
  have split : withReturns (body ++ newline :: rest) =
      withReturns body ++ withReturns (newline :: rest) := List.flatMap_append
  rw [split, withReturns_body noNewline]
  simp [withReturns]

/-- What does not see a carriage return at the end of a segment sees the same with them. -/
theorem map_splitOn_withReturns {α : Type} (view : List UInt8 → α)
    (ends : ∀ segment, view (segment ++ [13]) = view segment) (bytes : List UInt8) :
    ((withReturns bytes).splitOn newline).map view = (bytes.splitOn newline).map view := by
  induction bytes using lineInduction with
  | last body noNewline => rw [withReturns_body noNewline]
  | line body rest noNewline ih =>
    have longer : newline ∉ body ++ [13] := by simpa [newline] using noNewline
    rw [withReturns_line noNewline, List.splitOn_append_cons_self_of_not_mem longer,
      List.splitOn_append_cons_self_of_not_mem noNewline]
    simp [ends, ih]

end Lines

theorem trim_blank_append {front : String} (blank : ∀ c ∈ front.toList, isBlank c = true)
    (text : String) : trim (front ++ text) = trim text := by
  rw [trim, trim, String.toList_append, trimStart, List.dropWhile_append_of_pos blank, trimStart]

theorem trim_append_blanks {back : String} (blank : ∀ c ∈ back.toList, isBlank c = true)
    (text : String) : trim (text ++ back) = trim text := by
  have trailing (chars : List Char) : trimEnd (chars ++ back.toList) = trimEnd chars := by
    rw [trimEnd, List.reverse_append,
      List.dropWhile_append_of_pos fun c c_mem => blank c (List.mem_reverse.mp c_mem), trimEnd]
  rw [trim, trim, String.toList_append, trimStart, List.dropWhile_append]
  split
  · rename_i empty
    have none : text.toList.dropWhile isBlank = [] := by simpa using empty
    rw [List.dropWhile_eq_nil_iff.mpr blank, trimStart, none]
  · rw [trailing, trimStart]

theorem isBlank_of_trim {text : String} (nothing : trim text = "") :
    ∀ c ∈ text.toList, isBlank c = true := by
  have cut : trimEnd (trimStart text.toList) = [] := by simpa [trim] using nothing
  have inner : ∀ c ∈ trimStart text.toList, isBlank c = true := by
    have all := List.dropWhile_eq_nil_iff.mp (List.reverse_eq_nil_iff.mp cut)
    exact fun c c_mem => all c (List.mem_reverse.mpr c_mem)
  refine List.dropWhile_eq_nil_iff.mp ?_
  cases rest : text.toList.dropWhile isBlank with
  | nil => rfl
  | cons c others =>
    have head := List.head_dropWhile_not isBlank (l := text.toList) (by simp [rest])
    simp only [rest, List.head_cons] at head
    have blank := inner c (by rw [trimStart, rest]; exact List.mem_cons_self)
    simp [head] at blank

theorem trim_eq_empty_iff {text : String} :
    trim text = "" ↔ ∀ c ∈ text.toList, isBlank c = true := by
  refine ⟨isBlank_of_trim, fun blank => ?_⟩
  have nothing : trimStart text.toList = [] := List.dropWhile_eq_nil_iff.mpr blank
  rw [trim, nothing]
  rfl

theorem trimStart_of_head {c : Char} {rest : List Char} (notBlank : isBlank c = false) :
    trimStart (c :: rest) = c :: rest := by
  simp [trimStart, notBlank]

theorem trimEnd_cons {c : Char} (notBlank : isBlank c = false) (rest : List Char) :
    trimEnd (c :: rest) = c :: trimEnd rest := by
  rw [trimEnd, trimEnd, List.reverse_cons, List.dropWhile_append]
  split
  · rename_i empty
    have none : rest.reverse.dropWhile isBlank = [] := by simpa using empty
    simp [notBlank, none]
  · simp

theorem trim_trim (text : String) : trim (trim text) = trim text := by
  have twice (chars : List Char) : trimEnd (trimEnd chars) = trimEnd chars := by
    simp [trimEnd, List.dropWhile_idempotent]
  have front : trimStart (trimEnd (trimStart text.toList)) = trimEnd (trimStart text.toList) := by
    cases kept : trimStart text.toList with
    | nil => rfl
    | cons c rest =>
      have again : trimStart (c :: rest) = c :: rest := by
        rw [← kept]
        exact List.dropWhile_idempotent _ _
      have notBlank : isBlank c = false :=
        Bool.eq_false_iff.mpr (List.dropWhile_eq_self_iff.mp again (Nat.zero_lt_succ _))
      rw [trimEnd_cons notBlank, trimStart_of_head notBlank]
  rw [trim, trim, String.toList_ofList, front, twice]

theorem trim_eq_self {first last : Char} {middle : List Char} (head : isBlank first = false)
    (tail : isBlank last = false) :
    trim (.ofList (first :: middle ++ [last])) = .ofList (first :: middle ++ [last]) := by
  unfold trim
  rw [String.toList_ofList, List.cons_append, trimStart_of_head head, ← List.cons_append, trimEnd]
  simp [tail]

theorem isBlank_toLower (c : Char) : isBlank c.toLower = isBlank c := by
  by_cases upper : 'A'.val ≤ c.val ∧ c.val ≤ 'Z'.val
  · have bounds : 65 ≤ c.toNat ∧ c.toNat ≤ 90 := by
      simpa [UInt32.le_iff_toNat_le, ← Char.toNat_val] using upper
    obtain ⟨valid, spelled⟩ : ∃ valid, c.toLower = ⟨c.val + ('a'.val - 'A'.val), valid⟩ :=
      ⟨_, dif_pos upper⟩
    have lowered : c.toLower.toNat = c.toNat + 32 := by
      rw [spelled, ← Char.toNat_val, ← Char.toNat_val, UInt32.toNat_add]
      simp only [Char.toNat_val, UInt32.reduceSub, Char.reduceVal, UInt32.reduceToNat]
      omega
    have notBlank {d : Char} (range : 65 ≤ d.toNat ∧ d.toNat ≤ 122) : isBlank d = false := by
      simp only [isBlank, blankRanges, List.any_cons, List.any_nil, Bool.or_false,
        Bool.or_eq_false_iff, Bool.and_eq_false_iff, decide_eq_false_iff_not]
      omega
    rw [notBlank (by omega), notBlank (by omega)]
  · have same : c.toLower = c := dif_neg upper
    rw [same]

theorem trim_lower (text : String) : trim (lower text) = lower (trim text) := by
  have same : isBlank ∘ Char.toLower = isBlank := funext isBlank_toLower
  simp only [trim, lower, trimStart, trimEnd, String.toList_ofList, List.dropWhile_map, same,
    ← List.map_reverse]

end StatsRelay.Text
