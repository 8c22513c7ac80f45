import StatsRelay.Proofs.Behind

/-! Texts that are joined with an object behind them. The reader takes the object for a value of its
own, or goes astray in its first name; so a text that has something before the object, on the same
line, is no document. -/
namespace StatsRelay.Json

/-- The beginning of an object, whose first name starts with a character that cannot follow a name
or a value. -/
structure Opens (block : List Char) (c : Char) (tail : List Char) : Prop where
  spelled : block = '\x7b' :: '"' :: c :: tail
  filled : isBlank c = false
  apart : c ∉ [',', ':', ']', '\x7d']

/-- What is left is the whole block and more before it, or what follows its first quotation mark. -/
def Left (block rest : List Char) : Prop := block <:+ rest ∨ rest = block.drop 2

/-- Reading ends before the block. -/
def Keeps (block : List Char) (read : List Char → Option (List Char)) : Prop :=
  ∀ text rest, block <:+ text → read text = some rest → block <:+ rest

/-- Reading ends before the block or within it, or has read the block and nothing behind it. -/
def Meets (block : List Char) (read : List Char → Option (List Char)) : Prop :=
  ∀ text rest, block <:+ text → read text = some rest → Left block rest ∨ rest = []

def Escaped (body : List Char) : Prop :=
  ∀ before after, body = before ++ '"' :: after → before.getLast? = some '\\'

theorem Escaped.append {front body : List Char} (unquoted : '"' ∉ front) (escaped : Escaped body) :
    Escaped (front ++ body) := by
  intro before after same
  rcases List.append_eq_append_iff.mp same with ⟨middle, rfl, cut⟩ | ⟨middle, rfl, cut⟩
  · have last := escaped middle after cut
    rw [List.getLast?_append, last]
    rfl
  · cases middle with
    | nil => exact absurd (escaped [] after (by simpa using cut.symm)) (by simp)
    | cons c others =>
      obtain ⟨rfl, _⟩ := List.cons_eq_cons.mp cut
      simp at unquoted

theorem Escaped.escape {body : List Char} (escaped : Escaped body) (c : Char) :
    Escaped ('\\' :: c :: body) := by
  intro before after same
  rcases before with _ | ⟨first, _ | ⟨second, before⟩⟩
  · cases same
  · cases same
    rfl
  · simp only [List.cons_append, List.cons.injEq] at same
    obtain ⟨rfl, rfl, same⟩ := same
    rw [List.getLast?_cons_cons, List.getLast?_cons, escaped before after same]
    rfl

private theorem ne_quote_of_hexValue? {c : Char} {value : Nat} (digit : hexValue? c = some value) :
    '"' ≠ c := by
  rintro rfl
  revert digit
  decide +revert

/-- A string ends at its first quotation mark that is not escaped. -/
theorem readPieces_spec {text rest : List Char} {pieces : List Piece}
    (read : readPieces text = some (pieces, rest)) :
    ∃ body, text = body ++ '"' :: rest ∧ Escaped body := by
  fun_induction readPieces text generalizing pieces with
  | case1 => cases read
  | case2 =>
    cases read
    exact ⟨[], rfl, fun before after same => absurd same (by simp)⟩
  | case3 a b c d others ih =>
    simp only [Option.bind_eq_bind, Option.bind_eq_some_iff] at read
    obtain ⟨_, first, _, second, _, third, _, fourth, ⟨more, behind⟩, read, same⟩ := read
    cases same
    obtain ⟨body, rfl, escaped⟩ := ih read
    refine ⟨'\\' :: 'u' :: ([a, b, c, d] ++ body), rfl, .escape (.append ?_ escaped) 'u'⟩
    simp [ne_quote_of_hexValue? first, ne_quote_of_hexValue? second, ne_quote_of_hexValue? third,
      ne_quote_of_hexValue? fourth]
  | case4 c others _ ih =>
    simp only [Option.bind_eq_bind, Option.bind_eq_some_iff] at read
    obtain ⟨_, _, ⟨more, behind⟩, read, same⟩ := read
    cases same
    obtain ⟨body, rfl, escaped⟩ := ih read
    exact ⟨'\\' :: c :: body, rfl, escaped.escape c⟩
  | case5 => cases read
  | case6 c others unquoted _ _ _ ih =>
    simp only [Option.bind_eq_bind, Option.bind_eq_some_iff] at read
    obtain ⟨⟨more, behind⟩, read, same⟩ := read
    cases same
    obtain ⟨body, rfl, escaped⟩ := ih read
    exact ⟨[c] ++ body, rfl, .append (by simpa [eq_comm] using unquoted) escaped⟩

/-- What is taken of a text without a brace ends before the block. -/
theorem suffix_of_taken {block taken rest : List Char} {c : Char} {tail : List Char}
    (opens : Opens block c tail) (unopened : '\x7b' ∉ taken) (within : block <:+ taken ++ rest) :
    block <:+ rest := by
  induction taken with
  | nil => exact within
  | cons d taken ih =>
    obtain ⟨other, unopened⟩ : '\x7b' ≠ d ∧ '\x7b' ∉ taken := by simpa using unopened
    rcases List.suffix_cons_iff.mp within with same | within
    · rw [opens.spelled] at same
      exact absurd (List.cons.inj same).1 other
    · exact ih unopened within

namespace Literal

theorem takeDigits_append_rest {text digits rest : List Char}
    (taken : takeDigits text = (digits, rest)) : text = digits ++ rest := by
  rw [takeDigits, List.span_eq_takeWhile_dropWhile] at taken
  cases taken
  exact (List.takeWhile_append_dropWhile).symm

def Takes (text rest : List Char) : Prop := ∃ taken, text = taken ++ rest ∧ '\x7b' ∉ taken

theorem Takes.refl (text : List Char) : Takes text text := ⟨[], rfl, List.not_mem_nil⟩

theorem Takes.trans {text middle rest : List Char} (first : Takes text middle)
    (second : Takes middle rest) : Takes text rest := by
  obtain ⟨taken, rfl, unopened⟩ := first
  obtain ⟨taken', rfl, unopened'⟩ := second
  exact ⟨taken ++ taken', by simp, by simp [unopened, unopened']⟩

theorem Takes.cons {text rest : List Char} (takes : Takes text rest) {c : Char}
    (other : c ≠ '\x7b') : Takes (c :: text) rest :=
  .trans ⟨[c], rfl, by simpa using other.symm⟩ takes

theorem takes_digits {text digits rest : List Char} (taken : takeDigits text = (digits, rest)) :
    Takes text rest := by
  refine ⟨digits, takeDigits_append_rest taken, fun digit_mem => ?_⟩
  have digit := isDigit_of_takeDigits taken _ digit_mem
  revert digit
  decide

theorem takes_whole {text whole rest : List Char} (taken : takeWhole text = some (whole, rest)) :
    Takes text rest := by
  unfold takeWhole at taken
  split at taken
  · cases taken
  · cases taken
  · exact takes_digits (Option.some.inj taken)

theorem takes_fraction {text fraction rest : List Char}
    (taken : takeFraction text = some (fraction, rest)) : Takes text rest := by
  unfold takeFraction at taken
  split at taken
  · split at taken
    · cases taken
    · exact (takes_digits (Option.some.inj taken)).cons (by decide)
  · cases taken
    exact .refl _

theorem takes_exponent {text exponent rest : List Char} {negative : Bool}
    (taken : takeExponent text = some (negative, exponent, rest)) : Takes text rest := by
  unfold takeExponent at taken
  split at taken
  · cases taken
    exact .refl _
  · rename_i mark rest'
    split at taken
    · rename_i marked
      dsimp only at taken
      split at taken
      · cases taken
      · rename_i found
        cases taken
        have digits := takes_digits found
        have signed : Takes rest' rest := by
          split at digits
          · exact digits.cons (by decide)
          · exact digits.cons (by decide)
          · exact digits
        exact signed.cons (by rintro rfl; simp at marked)
    · cases taken
      exact .refl _

theorem takes_of_take? {text rest : List Char} {literal : Literal}
    (taken : take? text = some (literal, rest)) : Takes text rest := by
  simp only [take?, Option.bind_eq_bind, Option.bind_eq_some_iff] at taken
  obtain ⟨⟨whole, text⟩, first, ⟨fraction, text⟩, second, ⟨negative, exponent, text⟩, third,
    same⟩ := taken
  cases same
  have unsigned :=
    (takes_whole first).trans ((takes_fraction second).trans (takes_exponent third))
  split at unsigned
  · exact unsigned.cons (by decide)
  · exact unsigned

end Literal

section

variable {block tail text rest : List Char} {c : Char} (opens : Opens block c tail)
include opens

theorem readString_left {found : Option String} (isSuffix : block <:+ text)
    (read : readString text = some (found, rest)) : Left block rest := by
  obtain ⟨⟨pieces, behind⟩, read, same⟩ := Option.map_eq_some_iff.mp read
  cases same
  obtain ⟨body, rfl, escaped⟩ := readPieces_spec read
  have starts := opens.spelled
  rcases List.suffix_or_suffix_of_suffix isSuffix (List.suffix_append body ('"' :: rest)) with
    behind | ⟨front, same⟩
  · rcases List.suffix_cons_iff.mp behind with same | behind
    · rw [starts] at same
      cases same
    · exact .inl behind
  · -- The string ends within the block, and no later than at the first quotation mark there.
    rw [starts] at same
    rcases front with _ | ⟨brace, _ | ⟨quote, middle⟩⟩
    · cases same
    · cases same
      exact .inr (by rw [starts]; rfl)
    · obtain ⟨before, whole⟩ := isSuffix
      simp only [List.cons_append, List.cons.injEq] at same
      obtain ⟨rfl, rfl, same⟩ := same
      have cut : body ++ '"' :: rest = ((before ++ ['\x7b']) ++ '"' :: middle) ++ '"' :: rest := by
        rw [← whole, starts, ← same]
        simp
      have quoted := List.append_cancel_right cut
      have last := escaped _ _ quoted
      simp at last

theorem suffix_skipBlanks (isSuffix : block <:+ text) : block <:+ skipBlanks text := by
  obtain ⟨front, rfl⟩ := isSuffix
  have unskipped : skipBlanks block = block := by
    rw [opens.spelled, skipBlanks_cons (by decide)]
  rw [skipBlanks, List.dropWhile_append]
  split
  · exact ⟨[], unskipped.symm⟩
  · exact List.suffix_append _ _

theorem suffix_of_cons {d : Char} (isSuffix : block <:+ d :: rest) (other : d ≠ '\x7b') :
    block <:+ rest := by
  rcases List.suffix_cons_iff.mp isSuffix with same | isSuffix
  · rw [opens.spelled] at same
    exact absurd (List.cons.inj same).1.symm other
  · exact isSuffix

theorem suffix_of_left {d : Char} (left : Left block text ∨ text = [])
    (skipped : skipBlanks text = d :: rest) (closing : d ∈ [',', ':', ']', '\x7d']) :
    block <:+ rest := by
  rcases left with (isSuffix | rfl) | rfl
  · refine suffix_of_cons opens (skipped ▸ suffix_skipBlanks opens isSuffix) ?_
    rintro rfl
    revert closing
    decide
  · rw [opens.spelled, List.drop_succ_cons, List.drop_succ_cons, List.drop_zero,
      skipBlanks_cons opens.filled] at skipped
    cases skipped
    exact absurd closing opens.apart
  · cases skipped

theorem behindName_keeps : Keeps block behindName := by
  intro text rest isSuffix read
  have skipped := suffix_skipBlanks opens isSuffix
  unfold behindName at read
  split at read
  · rename_i d others starts
    rw [starts] at skipped
    split at read
    · rename_i quote
      obtain ⟨⟨name, behind⟩, named, read⟩ := Option.bind_eq_some_iff.mp read
      have isSuffix := suffix_of_cons opens skipped (by rw [quote]; decide)
      have left := readString_left opens isSuffix named
      dsimp only at read
      split at read
      · rename_i colon
        split at read
        · rename_i same
          cases read
          exact suffix_of_left opens (.inl left) colon (by rw [same]; decide)
        · cases read
      · cases read
    · cases read
  · cases read

theorem behindPart_suffix {close : Char} {next : List Char → Option (List Char)}
    (closing : close ∈ [',', ':', ']', '\x7d']) (keeps : Keeps block next)
    (left : Left block text ∨ text = []) (read : behindPart close next text = some rest) :
    block <:+ rest := by
  unfold behindPart at read
  split at read
  · rename_i d others skipped
    split at read
    · rename_i comma
      exact keeps _ _ (suffix_of_left opens left skipped (by rw [comma]; decide)) read
    · split at read
      · rename_i closed
        cases read
        exact suffix_of_left opens left skipped (closed ▸ closing)
      · cases read
  · cases read

theorem behindItems_keeps {item : Step} (meets : Meets block item.behind) (fuel : Nat) :
    Keeps block (behindItems item fuel) := by
  induction fuel with
  | zero => exact fun _ _ _ read => nomatch read
  | succ fuel ih =>
    intro text rest isSuffix read
    rw [behindItems_succ] at read
    obtain ⟨left, first, others⟩ := Option.bind_eq_some_iff.mp read
    exact behindPart_suffix opens (by decide) ih (meets _ _ isSuffix first) others

theorem behindMembers_keeps {item : Step} (meets : Meets block item.behind) (fuel : Nat) :
    Keeps block (behindMembers item fuel) := by
  induction fuel with
  | zero => exact fun _ _ _ read => nomatch read
  | succ fuel ih =>
    intro text rest isSuffix read
    rw [behindMembers_succ] at read
    obtain ⟨middle, named, read⟩ := Option.bind_eq_some_iff.mp read
    obtain ⟨left, first, others⟩ := Option.bind_eq_some_iff.mp read
    have isSuffix := behindName_keeps opens _ _ isSuffix named
    exact behindPart_suffix opens (by decide) ih (meets _ _ isSuffix first) others

theorem behindOpening_keeps {close : Char} {parts : Nat → List Char → Option (List Char)}
    (other : close ≠ '\x7b') (keeps : ∀ fuel, Keeps block (parts fuel)) :
    Keeps block (behindOpening close parts) := by
  intro text rest isSuffix read
  have skipped := suffix_skipBlanks opens isSuffix
  unfold behindOpening at read
  split at read
  · rename_i d others starts
    rw [starts] at skipped
    split at read
    · rename_i closed
      cases read
      exact suffix_of_cons opens skipped (closed ▸ other)
    · exact keeps _ _ _ skipped read
  · rename_i starts
    rw [starts, opens.spelled] at skipped
    exact absurd (List.suffix_nil.mp skipped) (by simp)

theorem readScalar_left {d : Char} (isSuffix : block <:+ text) (other : d ≠ '\x7b')
    (read : (readScalar (d :: text)).2 = some rest) : Left block rest := by
  have word {word : List Char} {found : Document} (unopened : '\x7b' ∉ word)
      (read : (readWord word found text).2 = some rest) : Left block rest := by
    unfold readWord at read
    split at read
    · rename_i starts
      obtain ⟨behind, rfl⟩ := List.isPrefixOf_iff_prefix.mp starts
      rw [List.drop_left] at read
      cases read
      exact .inl (suffix_of_taken opens unopened isSuffix)
    · cases read
  rw [readScalar.eq_def] at read
  split at read
  · cases read
  · rename_i starts
    cases starts
    split at read
    · rename_i named
      cases read
      exact readString_left opens isSuffix named
    · cases read
  · rename_i starts
    cases starts
    exact word (by decide) read
  · rename_i starts
    cases starts
    exact word (by decide) read
  · rename_i starts
    cases starts
    exact word (by decide) read
  · split at read
    · rename_i taken
      cases read
      obtain ⟨front, same, unopened⟩ := Literal.takes_of_take? taken
      refine .inl (suffix_of_taken opens unopened (same ▸ ?_))
      exact List.suffix_cons_iff.mpr (.inr isSuffix)
    · cases read

/-- A reading that has begun before the block does not come to an end behind it. -/
theorem readWith_left {item : Option Step} (meets : ∀ step ∈ item, Meets block step.behind)
    {d : Char} {others : List Char} (skipped : skipBlanks text = d :: others)
    (isSuffix : block <:+ others) (read : Step.behind (readWith item) text = some rest) :
    Left block rest := by
  rw [behind_readWith, skipped] at read
  dsimp only at read
  split at read
  · obtain ⟨step, given, opened⟩ := Option.bind_eq_some_iff.mp read
    have keeps := behindItems_keeps opens (meets step given)
    exact .inl (behindOpening_keeps opens (by decide) keeps _ _ isSuffix opened)
  · split at read
    · obtain ⟨step, given, opened⟩ := Option.bind_eq_some_iff.mp read
      have keeps := behindMembers_keeps opens (meets step given)
      exact .inl (behindOpening_keeps opens (by decide) keeps _ _ isSuffix opened)
    · rename_i other
      exact readScalar_left opens isSuffix other read

/-- Nothing is found behind the block but its end, however much room there is. -/
def Whole (block : List Char) : Prop :=
  ∀ room rest, (readNested room).behind block = some rest → rest = []

theorem readWith_meets {item : Option Step} (meets : ∀ step ∈ item, Meets block step.behind)
    (whole : ∀ rest, Step.behind (readWith item) block = some rest → rest = []) :
    Meets block (Step.behind (readWith item)) := by
  intro text rest isSuffix read
  have skipped := suffix_skipBlanks opens isSuffix
  have starts := opens.spelled
  have unskipped : skipBlanks block = block := by
    rw [starts, skipBlanks_cons (by decide)]
  cases left : skipBlanks text with
  | nil =>
    rw [left, starts] at skipped
    exact absurd (List.suffix_nil.mp skipped) (by simp)
  | cons d others =>
    rw [left] at skipped
    rcases List.suffix_cons_iff.mp skipped with same | isSuffix
    · rw [behind_readWith, left, ← same, ← unskipped, ← behind_readWith] at read
      exact .inr (whole rest read)
    · exact .inl (readWith_left opens meets left isSuffix read)

theorem readNested_meets (whole : Whole block) (room : Nat) :
    Meets block (readNested room).behind := by
  induction room with
  | zero => exact readWith_meets opens nofun (whole 0)
  | succ room ih =>
    exact readWith_meets opens (fun step given => Option.some.inj given ▸ ih) (whole (room + 1))

theorem filled_of_left (left : Left block rest) : skipBlanks rest ≠ [] := by
  rcases left with isSuffix | rfl
  · intro blank
    have skipped := suffix_skipBlanks opens isSuffix
    rw [blank, opens.spelled] at skipped
    exact absurd (List.suffix_nil.mp skipped) (by simp)
  · rw [opens.spelled, List.drop_succ_cons, List.drop_succ_cons, List.drop_zero,
      skipBlanks_cons opens.filled]
    exact List.cons_ne_nil _ _

/-- There is no document that has the block behind something else. -/
theorem parse?_joined (whole : Whole block) {first : Char} (notBlank : isBlank first = false)
    (front : List Char) : Value.parse? (.ofList (first :: front ++ block)) = none := by
  have starts := skipBlanks_cons notBlank (front ++ block)
  have incomplete : (Json.read (.ofList (first :: front ++ block))).complete = false := by
    rw [Json.read, String.toList_ofList, List.cons_append, List.length_cons]
    generalize (front ++ block).length = room
    cases read : readNested (room + 1) (first :: (front ++ block)) with
    | mk document behind =>
      cases behind with
      | none => rfl
      | some rest =>
        have meets : ∀ step ∈ some (readNested room), Meets block step.behind :=
          fun step given => Option.some.inj given ▸ readNested_meets opens whole room
        have left := readWith_left opens meets starts (List.suffix_append front block)
          (congrArg Prod.snd read)
        exact List.isEmpty_eq_false_iff.mpr (filled_of_left opens left)
  rw [Value.parse?, incomplete]
  rfl

end

theorem whole_of_denotes {block : List Char} {room : Nat} {document : Document}
    (denotes : Denotes room block document) : Whole block := by
  intro room' rest read
  have found : (readNested room).behind block = some [] := by
    have found := denotes.read Literal.ends_nil
    rw [List.append_nil] at found
    rw [Step.behind, found]
  have more := readNested_extends room' room _ _ read
  have more' := readNested_extends room room' _ _ found
  rw [Nat.add_comm, more] at more'
  exact Option.some.inj more'

/-- The names of members are written so that a letter at their start is left as it is. -/
theorem opens_object {name : String} {c : Char} (starts : name.toList.head? = some c)
    (plain : escape c = [c]) (notBlank : isBlank c = false) (apart : c ∉ [',', ':', ']', '\x7d'])
    (value : Value) (members : List (String × Value)) :
    ∃ tail, Opens (Value.object ((name, value) :: members)).write c tail := by
  obtain ⟨others, spelled⟩ := List.head?_eq_some_iff.mp starts
  refine ⟨others.flatMap escape ++ '"' :: ':' :: (value.write ++ Value.writeMembers members), ?_,
    notBlank, apart⟩
  simp [Value.write, writeString, spelled, plain]

end StatsRelay.Json
