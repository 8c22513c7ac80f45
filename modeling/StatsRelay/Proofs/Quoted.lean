import StatsRelay.Toml.Quoted

/-! Strings of TOML in the form that is chosen for them. A string ends at the first place where
enough quotes stand, so what is written must keep its own quotes apart: by the choice of the form,
or by escapes. -/
namespace StatsRelay.Toml

def leading (quote : Char) (text : List Char) : Nat := (text.takeWhile (· = quote)).length

theorem leading_cons (quote c : Char) (text : List Char) :
    leading quote (c :: text) = if c = quote then leading quote text + 1 else 0 := by
  by_cases same : c = quote <;> simp [leading, same]

theorem leading_of_head {quote : Char} {text : List Char} (other : text.head? ≠ some quote) :
    leading quote text = 0 := by
  cases text with
  | nil => rfl
  | cons c text =>
    rw [leading_cons, if_neg]
    simpa using other

theorem leading_append_of_all {quote : Char} {text : List Char} (all : ∀ c ∈ text, c = quote)
    (rest : List Char) : leading quote (text ++ rest) = text.length + leading quote rest := by
  induction text with
  | nil => simp
  | cons c text ih =>
    obtain ⟨rfl, others⟩ := List.forall_mem_cons.mp all
    rw [List.cons_append, leading_cons, if_pos rfl, ih others, List.length_cons]
    omega

theorem leading_of_all {quote : Char} {text : List Char} (all : ∀ c ∈ text, c = quote) :
    leading quote text = text.length := by
  simpa [leading] using leading_append_of_all all []

theorem leading_append_of_other {quote : Char} {text : List Char} (other : ∃ c ∈ text, c ≠ quote)
    (rest : List Char) : leading quote (text ++ rest) = leading quote text := by
  induction text with
  | nil => simp at other
  | cons c text ih =>
    rw [List.cons_append, leading_cons, leading_cons]
    by_cases same : c = quote
    · rw [if_pos same, if_pos same, ih (by simpa [same] using other)]
    · rw [if_neg same, if_neg same]

variable {form : Form} {text rest : List Char}

/-- What may follow a string: no quote, which could be taken for a part of it. -/
def Unquoted (rest : List Char) : Prop := rest.head? ≠ some '"' ∧ rest.head? ≠ some '\''

theorem Unquoted.leading (after : Unquoted rest) (form : Form) :
    leading form.quote rest = 0 := by
  apply leading_of_head
  unfold Form.quote
  cases form.literal
  · exact after.1
  · exact after.2

theorem Form.length_mark (form : Form) : form.mark.length = if form.long then 3 else 1 :=
  List.length_replicate

theorem Form.length_mark_pos (form : Form) : 0 < form.mark.length := by
  rw [form.length_mark]
  split <;> decide

theorem Form.quote_basic (basic : form.literal = false) : form.quote = '"' := by
  simp [Form.quote, basic]

theorem closing?_none
    (few : leading form.quote text < form.mark.length) : closing? form text = none := by
  have run : (text.takeWhile (· = form.quote)).length = leading form.quote text := rfl
  rw [closing?, run]
  rw [form.length_mark] at few
  cases long : form.long with
  | false =>
    simp only [long, Bool.false_eq_true, if_false] at few ⊢
    exact if_neg (Nat.not_le.mpr few)
  | true =>
    simp only [long, if_true] at few ⊢
    exact if_neg (by omega)

theorem closing?_nil (form : Form) : closing? form [] = none :=
  closing?_none form.length_mark_pos

theorem leading_end (all : ∀ c ∈ text, c = form.quote)
    (after : Unquoted rest) :
    leading form.quote (text ++ form.mark ++ rest) = text.length + form.mark.length := by
  have marks : ∀ c ∈ form.mark, c = form.quote := fun c => List.eq_of_mem_replicate
  rw [List.append_assoc, leading_append_of_all all, leading_append_of_all marks,
    after.leading form, Nat.add_zero]

theorem closing?_end (all : ∀ c ∈ text, c = form.quote)
    (few : text.length < form.mark.length) (after : Unquoted rest) :
    closing? form (text ++ form.mark ++ rest) = some (text, rest) := by
  have run : ((text ++ form.mark ++ rest).takeWhile (· = form.quote)).length =
      text.length + form.mark.length := leading_end all after
  have dropped : (text ++ form.mark ++ rest).drop (text.length + form.mark.length) = rest :=
    List.drop_left' List.length_append
  rw [closing?, run]
  rw [form.length_mark] at few dropped ⊢
  cases long : form.long with
  | false =>
    simp only [long, Bool.false_eq_true, if_false] at few dropped ⊢
    obtain rfl : text = [] := List.length_eq_zero_iff.mp (by omega)
    simpa using dropped
  | true =>
    -- At most five quotes are taken together: three that end the string, and two that belong to it.
    simp only [long, if_true] at few dropped ⊢
    have bound : min (text.length + 3) 5 = text.length + 3 := by omega
    have same : List.replicate text.length form.quote = text :=
      (List.eq_replicate_iff.mpr ⟨rfl, all⟩).symm
    rw [bound, if_pos (by omega), Nat.add_sub_cancel, same, dropped]

/-- Nowhere in the text stand as many quotes as end the string. -/
def Tame (form : Form) (text : List Char) : Prop :=
  ∀ suffix, suffix <:+ text → leading form.quote suffix < form.mark.length

theorem Tame.tail {c : Char} (tame : Tame form (c :: text)) :
    Tame form text :=
  fun suffix isSuffix => tame suffix (isSuffix.trans (List.suffix_cons c text))

/-- Text with fewer quotes at its start than end the string ends there only if it is nothing but
quotes. -/
theorem closing?_append
    (few : leading form.quote text < form.mark.length) (after : Unquoted rest) :
    ((∀ c ∈ text, c = form.quote) ∧
      closing? form (text ++ form.mark ++ rest) = some (text, rest)) ∨
        closing? form (text ++ form.mark ++ rest) = none := by
  by_cases all : ∀ c ∈ text, c = form.quote
  · exact .inl ⟨all, closing?_end all (leading_of_all all ▸ few) after⟩
  · right
    apply closing?_none
    rw [List.append_assoc, leading_append_of_other (by simpa using all)]
    exact few

theorem readLiteral_close {found : List Char × List Char}
    (closes : closing? form text = some found) : readLiteral form text = some found := by
  cases text with
  | nil => simp [closing?_nil] at closes
  | cons c rest => rw [readLiteral, closes]

/-- In a literal string every character stands for itself. -/
theorem readLiteral_text (tame : Tame form text)
    (plain : ∀ c ∈ text, isControl c = false ∨ (form.long = true ∧ c = '\n'))
    (after : Unquoted rest) :
    readLiteral form (text ++ form.mark ++ rest) = some (text, rest) := by
  induction text with
  | nil => exact readLiteral_close (closing?_end (by simp) (tame [] List.suffix_rfl) after)
  | cons c text ih =>
    obtain ⟨here, others⟩ := List.forall_mem_cons.mp plain
    obtain ⟨_, closes⟩ | closes := closing?_append (tame _ List.suffix_rfl) after
    · exact readLiteral_close closes
    · have stands : isPlain form c (text ++ form.mark ++ rest) = true := by
        rcases here with printable | ⟨long, rfl⟩
        · simp [isPlain, printable]
        · simp [isPlain, long, startsLine]
      rw [List.cons_append, List.cons_append] at closes ⊢
      rw [readLiteral, closes]
      simp only [stands, if_true, ih tame.tail others]
      rfl

theorem closing?_of_head (other : text.head? ≠ some form.quote) :
    closing? form text = none := by
  apply closing?_none
  rw [leading_of_head other]
  exact form.length_mark_pos

theorem readBasic_close {found : List Char × List Char}
    (closes : closing? form text = some found) : readBasic form false text = some found := by
  cases text with
  | nil => simp [closing?_nil] at closes
  | cons c rest =>
    unfold readBasic
    simp [closes]

theorem readBasic_plain {c : Char} {after : List Char}
    (opened : closing? form (c :: rest) = none) (other : c ≠ '\\')
    (plain : isPlain form c rest = true) (read : readBasic form false rest = some (text, after)) :
    readBasic form false (c :: rest) = some (c :: text, after) := by
  unfold readBasic
  simp [opened, other, plain, read]

private theorem hexValue?_upperHexDigit :
    ∀ value < 16, Json.hexValue? (upperHexDigit value) = some value := by decide

private theorem charOf {code : Nat} {c : Char} (same : code = c.toNat) :
    (if h : code.isValidChar then some (Char.ofNatAux code h) else none) = some c := by
  subst same
  exact dif_pos c.valid

/-- Two digits are enough for every character that has to be escaped by its number. -/
theorem codePoint?_octet {c : Char} (small : c.toNat < 256) :
    codePoint? ['0', '0', upperHexDigit (c.toNat / 16), upperHexDigit (c.toNat % 16)] = some c := by
  have first := hexValue?_upperHexDigit (c.toNat / 16) (by omega)
  have second := hexValue?_upperHexDigit (c.toNat % 16) (by omega)
  have zero : Json.hexValue? '0' = some 0 := rfl
  have code : ((0 * 16 + 0) * 16 + c.toNat / 16) * 16 + c.toNat % 16 = c.toNat := by omega
  have values : ['0', '0', upperHexDigit (c.toNat / 16), upperHexDigit (c.toNat % 16)].mapM
      Json.hexValue? = some [0, 0, c.toNat / 16, c.toNat % 16] := by
    simp only [List.mapM_cons, List.mapM_nil, zero, first, second]
    rfl
  rw [codePoint?, values]
  exact charOf code

theorem isControl_small {c : Char} (control : isControl c = true) : c.toNat < 256 := by
  unfold isControl at control
  rcases Bool.or_eq_true_iff.mp control with low | last
  · have below : c.toNat < 0x20 := by simpa using (Bool.and_eq_true_iff.mp low).1
    omega
  · obtain rfl : c = '\x7f' := by simpa using last
    decide

theorem readBasic_escape (basic : form.literal = false) (c : Char)
    {after : List Char} (read : readBasic form false rest = some (text, after)) :
    readBasic form false (escape c ++ rest) = some (c :: text, after) := by
  have quote := Form.quote_basic basic
  have slash (others : List Char) : closing? form ('\\' :: others) = none :=
    closing?_of_head (by simp [quote])
  unfold escape
  by_cases short : c ∈ ['"', '\\', '\x08', '\t', '\n', '\x0c', '\x0d']
  · simp only [List.mem_cons, List.not_mem_nil, or_false] at short
    rcases short with rfl | rfl | rfl | rfl | rfl | rfl | rfl <;>
      (unfold readBasic; simp [slash, read, skipBlanks, startsLine, isBlank, unescape?])
  have others := short
  simp only [List.mem_cons, List.not_mem_nil, or_false, not_or] at others
  by_cases control : isControl c
  · have found := codePoint?_octet (isControl_small control)
    simp only [others, control, if_false, if_true, List.cons_append, List.nil_append]
    unfold readBasic
    simp [slash, read, skipBlanks, startsLine, isBlank, found]
  · simp only [others, control, if_false]
    apply readBasic_plain _ others.2.1 (by simp [isPlain, control]) read
    exact closing?_of_head (by simp [quote, others])

/-- On one line every character is escaped by itself. -/
theorem readBasic_escaped (basic : form.literal = false) (text : List Char)
    (after : Unquoted rest) :
    readBasic form false (text.flatMap escape ++ form.mark ++ rest) = some (text, rest) := by
  induction text with
  | nil => exact readBasic_close (closing?_end (by simp) form.length_mark_pos after)
  | cons c text ih =>
    rw [List.flatMap_cons, List.append_assoc, List.append_assoc, ← List.append_assoc _ form.mark]
    exact readBasic_escape basic c ih

theorem escape_head (c : Char) : ∃ first others, escape c = first :: others ∧
    first ≠ '"' ∧ first ≠ '\n' ∧ first ≠ '\x0d' := by
  unfold escape
  iterate 7
    split
    · exact ⟨_, _, rfl, by decide, by decide, by decide⟩
  split
  · exact ⟨_, _, rfl, by decide, by decide, by decide⟩
  · exact ⟨_, _, rfl, by assumption, by assumption, by assumption⟩

theorem escapeLong_cons {run : Nat} (few : run ≤ 2) (c : Char) (text : List Char) :
    (c = '"' ∧ run + 1 ≤ 2 ∧ escapeLong run (c :: text) = c :: escapeLong (run + 1) text) ∨
      (c = '\n' ∧ escapeLong run (c :: text) = c :: escapeLong 0 text) ∨
        escapeLong run (c :: text) = escape c ++ escapeLong 0 text := by
  rw [escapeLong]
  split
  · rename_i quote
    split
    · exact .inr (.inr rfl)
    · exact .inl ⟨quote, by omega, rfl⟩
  · split
    · rename_i newline
      exact .inr (.inl ⟨newline, rfl⟩)
    · exact .inr (.inr rfl)

/-- Where every third quote of a run is escaped, no three of them end the string too early. -/
theorem leading_escapeLong {run : Nat} (few : run ≤ 2) (text : List Char) :
    run + leading '"' (escapeLong run text) ≤ 2 := by
  induction text generalizing run with
  | nil => simpa [escapeLong, leading] using few
  | cons c text ih =>
    obtain ⟨rfl, less, written⟩ | ⟨rfl, written⟩ | written := escapeLong_cons few c text
    · have next := ih less
      rw [written, leading_cons, if_pos rfl]
      omega
    · rw [written, leading_cons, if_neg (by decide)]
      exact few
    · obtain ⟨first, others, escaped, other, _⟩ := escape_head c
      rw [written, escaped, List.cons_append, leading_cons, if_neg other]
      exact few

theorem escapeLong_of_all {run : Nat} (few : run ≤ 2) {text : List Char}
    (all : ∀ c ∈ escapeLong run text, c = '"') : escapeLong run text = text := by
  induction text generalizing run with
  | nil => rfl
  | cons c text ih =>
    obtain ⟨rfl, less, written⟩ | ⟨rfl, written⟩ | written := escapeLong_cons few c text
    · rw [written] at all ⊢
      rw [ih less (List.forall_mem_cons.mp all).2]
    · rw [written] at all
      exact absurd (List.forall_mem_cons.mp all).1 (by decide)
    · obtain ⟨first, others, escaped, other, _⟩ := escape_head c
      rw [written, escaped] at all
      exact absurd (List.forall_mem_cons.mp all).1 other

/-- On several lines a character is escaped with regard to the quotes right before it. -/
theorem readBasic_long (basic : form.literal = false) (long : form.long = true)
    {run : Nat} (few : run ≤ 2) (text : List Char) (after : Unquoted rest) :
    readBasic form false (escapeLong run text ++ form.mark ++ rest) = some (text, rest) := by
  -- The run tells how many quotes stand right before; with those that follow they are too few.
  have quote := Form.quote_basic basic
  have three : form.mark.length = 3 := by rw [form.length_mark, if_pos long]
  induction text generalizing run with
  | nil =>
    rw [escapeLong]
    exact readBasic_close (closing?_end (by simp) form.length_mark_pos after)
  | cons c text ih =>
    have bound := leading_escapeLong few (c :: text)
    have fewer : leading form.quote (escapeLong run (c :: text)) < form.mark.length := by
      rw [quote, three]
      omega
    obtain ⟨all, closes⟩ | closes := closing?_append fewer after
    · rw [quote] at all
      rw [escapeLong_of_all few all] at closes ⊢
      exact readBasic_close closes
    · obtain ⟨rfl, less, written⟩ | ⟨rfl, written⟩ | written := escapeLong_cons few c text
      · rw [written] at closes ⊢
        exact readBasic_plain closes (by decide) (by simp [isPlain, isControl]) (ih less)
      · rw [written] at closes ⊢
        exact readBasic_plain closes (by decide) (by simp [isPlain, long, startsLine]) (ih (by omega))
      · rw [written, List.append_assoc, List.append_assoc, ← List.append_assoc _ form.mark]
        exact readBasic_escape basic c (ih (by omega))

def longestFrom (quote : Char) (longest run : Nat) (text : List Char) : Nat :=
  (text.foldl (fun (longest, run) d =>
    if d = quote then (max longest (run + 1), run + 1) else (longest, 0)) (longest, run)).1

theorem longestFrom_cons (quote c : Char) (longest run : Nat) (text : List Char) :
    longestFrom quote longest run (c :: text) =
      if c = quote then longestFrom quote (max longest (run + 1)) (run + 1) text
      else longestFrom quote longest 0 text := by
  unfold longestFrom
  by_cases same : c = quote <;> simp [same]

theorem longestFrom_bounds (quote : Char) {longest run : Nat} (reached : run ≤ longest)
    (text : List Char) :
    longest ≤ longestFrom quote longest run text ∧
      run + leading quote text ≤ longestFrom quote longest run text ∧
        ∀ suffix, suffix <:+ text → leading quote suffix ≤ longestFrom quote longest run text := by
  -- A run that has begun before the text is counted with the quotes that go on with it.
  induction text generalizing longest run with
  | nil => simp [longestFrom, leading, reached]
  | cons c text ih =>
    have suffixes {bound : Nat} (here : leading quote (c :: text) ≤ bound)
        (others : ∀ suffix, suffix <:+ text → leading quote suffix ≤ bound) :
        ∀ suffix, suffix <:+ c :: text → leading quote suffix ≤ bound := by
      intro suffix isSuffix
      rcases List.suffix_cons_iff.mp isSuffix with rfl | later
      · exact here
      · exact others suffix later
    rw [longestFrom_cons]
    have first := leading_cons quote c text
    by_cases same : c = quote
    · obtain ⟨most, here, others⟩ := ih (Nat.le_max_right longest (run + 1))
      rw [if_pos same] at first ⊢
      exact ⟨by omega, by omega, suffixes (by omega) others⟩
    · obtain ⟨most, here, others⟩ := ih (Nat.zero_le longest)
      rw [if_neg same] at first ⊢
      exact ⟨most, by omega, suffixes (by omega) others⟩

/-- Runs of at most two quotes do not end a long string. -/
theorem tame_of_longestRun (long : form.long = true) {text : List Char}
    (few : longestRun form.quote text ≤ 2) : Tame form text := by
  intro suffix isSuffix
  have bound := (longestFrom_bounds form.quote (Nat.le_refl 0) text).2.2 suffix isSuffix
  rw [form.length_mark, if_pos long]
  exact Nat.lt_succ_of_le (Nat.le_trans bound few)

theorem tame_of_not_mem (absent : form.quote ∉ text) :
    Tame form text := by
  intro suffix isSuffix
  have none : leading form.quote suffix = 0 := by
    apply leading_of_head
    intro first
    exact absent (isSuffix.subset (List.mem_of_mem_head? first))
  rw [none]
  exact form.length_mark_pos

/-- Whether a form can stand for a text. Nothing can be escaped in a literal string. -/
def Form.Suits (form : Form) (text : List Char) : Prop :=
  form.literal = true →
    Tame form text ∧ ∀ c ∈ text, isControl c = false ∨ (form.long = true ∧ c = '\n')

/-- The form that is chosen for a text can stand for it. -/
theorem chooseForm_suits (text : List Char) : (chooseForm text).Suits text := by
  have printable (codes : (text.any fun c => isControl c && c ≠ '\n') = false) :
      ∀ c ∈ text, isControl c = false ∨ c = '\n' := by
    intro c c_mem
    have each := List.any_eq_false.mp codes c c_mem
    cases control : isControl c with
    | false => exact .inl rfl
    | true => exact .inr (by simpa [control] using each)
  -- The forms in the order in which they are tried; only literal strings ask for something.
  unfold chooseForm
  dsimp only
  split
  · exact fun basic => nomatch basic
  split
  · rename_i none
    obtain ⟨⟨codes, lines⟩, quotes⟩ := by simpa only [Bool.and_eq_true, Bool.not_eq_true'] using none
    have absent : '\'' ∉ text := by simpa using quotes
    refine fun _ => ⟨tame_of_not_mem absent, fun c c_mem => ?_⟩
    rcases printable codes c c_mem with control | rfl
    · exact .inl control
    · simp [c_mem] at lines
  split
  · exact fun basic => nomatch basic
  split
  · rename_i few
    obtain ⟨codes, runs⟩ := by simpa only [Bool.and_eq_true, Bool.not_eq_true'] using few
    refine fun _ => ⟨tame_of_longestRun rfl (of_decide_eq_true runs), fun c c_mem => ?_⟩
    exact (printable codes c c_mem).imp_right fun newline => ⟨rfl, newline⟩
  · exact fun basic => nomatch basic

def bodyOf (form : Form) (text : List Char) : List Char :=
  if form.literal then text else if form.long then escapeLong 0 text else text.flatMap escape

def readBody (form : Form) (text : List Char) : Option (List Char × List Char) :=
  if form.literal then readLiteral form text else readBasic form false text

theorem readBody_bodyOf (suits : form.Suits text)
    (after : Unquoted rest) :
    readBody form (bodyOf form text ++ form.mark ++ rest) = some (text, rest) := by
  unfold readBody bodyOf
  cases literal : form.literal with
  | true =>
    obtain ⟨tame, plain⟩ := suits literal
    exact readLiteral_text tame plain after
  | false =>
    cases long : form.long with
    | true => exact readBasic_long literal long (Nat.zero_le 2) text after
    | false => exact readBasic_escaped literal text after

theorem leading_bodyOf (suits : form.Suits text) :
    leading form.quote (bodyOf form text) < form.mark.length := by
  unfold bodyOf
  cases literal : form.literal with
  | true => exact (suits literal).1 text List.suffix_rfl
  | false =>
    rw [Form.quote_basic literal, form.length_mark]
    cases long : form.long with
    | true =>
      have bound := leading_escapeLong (Nat.zero_le 2) text
      simpa using Nat.lt_succ_of_le bound
    | false =>
      cases text with
      | nil => simp [leading]
      | cons c text =>
        obtain ⟨first, others, escaped, other, _⟩ := escape_head c
        simp [escaped, leading_cons, other]

theorem opening?_long (long : form.long = true) (text : List Char) :
    opening? (form.mark ++ text) = some (form, text) := by
  obtain ⟨literal, _⟩ := form
  cases long
  cases literal <;> rfl

theorem opening?_short (short : form.long = false) {text : List Char}
    (few : leading form.quote text ≤ 1) : opening? (form.mark ++ text) = some (form, text) := by
  have apart (more : List Char) : text ≠ form.quote :: form.quote :: more := by
    rintro rfl
    rw [leading_cons, leading_cons] at few
    simp at few
  obtain ⟨literal, _⟩ := form
  cases short
  cases literal with
  | false => exact opening?.eq_2 text apart
  | true => exact opening?.eq_4 text apart

/-- Only a line end right after the opening quotes is skipped. -/
theorem readForm_eq
    (starts : form.long = true → startsLine text = false) :
    readForm form text = readBody form text := by
  refine congrArg (readBody form) ?_
  split
  · rename_i long
    exact nomatch starts long
  · rename_i long
    exact nomatch starts long
  · rfl

theorem readForm_newline (long : form.long = true) (text : List Char) :
    readForm form ('\n' :: text) = readBody form text := by
  unfold readForm readBody
  rw [long]
  rfl

theorem startsLine_of_head {c : Char} (newline : c ≠ '\n') (return' : c ≠ '\x0d')
    (rest : List Char) : startsLine (c :: rest) = false := by
  unfold startsLine
  split
  · rename_i same
    exact absurd (List.cons.inj same).1 newline
  · rename_i same
    exact absurd (List.cons.inj same).1 return'
  · rfl

theorem startsLine_bodyOf (suits : form.Suits text)
    (long : form.long = true) (lineless : '\n' ∉ text) (rest : List Char) :
    startsLine (bodyOf form text ++ form.mark ++ rest) = false := by
  cases text with
  | nil =>
    have empty : bodyOf form [] = [] := by simp [bodyOf, escapeLong]
    obtain ⟨literal, _⟩ := form
    cases long
    rw [empty]
    cases literal <;> rfl
  | cons c text =>
    have other : c ≠ '\n' := by
      rintro rfl
      exact lineless List.mem_cons_self
    cases literal : form.literal with
    | true =>
      have printable := ((suits literal).2 c List.mem_cons_self).resolve_right fun newline =>
        other newline.2
      have apart : c ≠ '\x0d' := by
        rintro rfl
        exact absurd printable (by decide)
      rw [bodyOf, if_pos literal]
      exact startsLine_of_head other apart _
    | false =>
      rw [bodyOf, literal, if_neg Bool.false_ne_true, if_pos long]
      obtain ⟨rfl, _, written⟩ | ⟨newline, _⟩ | written := escapeLong_cons (Nat.zero_le 2) c text
      · rw [written]
        exact startsLine_of_head (by decide) (by decide) _
      · exact absurd newline other
      · obtain ⟨first, others, escaped, _, newline, return'⟩ := escape_head c
        rw [written, escaped]
        exact startsLine_of_head newline return' _

theorem readString_writeForm (suits : form.Suits text)
    (after : Unquoted rest) : readString (writeForm form text ++ rest) = some (text, rest) := by
  have read := readBody_bodyOf suits after
  have few := leading_bodyOf suits
  cases long : form.long with
  | false =>
    have written : writeForm form text ++ rest =
        form.mark ++ (bodyOf form text ++ form.mark ++ rest) := by
      simp [writeForm, bodyOf, long]
    have one : form.mark.length = 1 := by simp [form.length_mark, long]
    -- Two quotes and a third would open a long string.
    have single : leading form.quote (bodyOf form text ++ form.mark ++ rest) ≤ 1 := by
      by_cases all : ∀ c ∈ bodyOf form text, c = form.quote
      · rw [leading_of_all all] at few
        rw [leading_end all after]
        omega
      · rw [List.append_assoc, leading_append_of_other (by simpa using all)]
        omega
    rw [written, readString, opening?_short long single]
    exact (readForm_eq fun same => nomatch long.symm.trans same).trans read
  | true =>
    -- A line end is written after the mark exactly if the text has one, and is not read.
    by_cases lines : '\n' ∈ text
    · have written : writeForm form text ++ rest =
          form.mark ++ '\n' :: (bodyOf form text ++ form.mark ++ rest) := by
        simp [writeForm, bodyOf, long, lines]
      rw [written, readString, opening?_long long]
      exact (readForm_newline long _).trans read
    · have written : writeForm form text ++ rest =
          form.mark ++ (bodyOf form text ++ form.mark ++ rest) := by
        simp [writeForm, bodyOf, long, lines]
      rw [written, readString, opening?_long long]
      exact (readForm_eq fun _ => startsLine_bodyOf suits long lines rest).trans read

/-- Every text is read back from the string it is written as. -/
theorem readString_writeString (text : List Char) (after : Unquoted rest) :
    readString (writeString text ++ rest) = some (text, rest) :=
  readString_writeForm (chooseForm_suits text) after

end StatsRelay.Toml
