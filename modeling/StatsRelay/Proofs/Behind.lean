import StatsRelay.Proofs.Compact

/-! What a reader leaves behind the document at the start of a text, part by part. Where it comes to
an end, more room for nesting changes nothing. -/
namespace StatsRelay.Json

def Step.behind (step : Step) (text : List Char) : Option (List Char) := (step text).2

def behindName (text : List Char) : Option (List Char) :=
  match skipBlanks text with
  | c :: rest =>
    if c = '"' then (readString rest).bind fun (_, rest) => match skipBlanks rest with
      | c :: rest => if c = ':' then some rest else none
      | [] => none
    else none
  | [] => none

def behindPart (close : Char) (next : List Char → Option (List Char)) (text : List Char) :
    Option (List Char) :=
  match skipBlanks text with
  | c :: rest => if c = ',' then next rest else if c = close then some rest else none
  | [] => none

def behindItems (item : Step) (fuel : Nat) (text : List Char) : Option (List Char) :=
  (readItems item fuel text).2

def behindMembers (item : Step) (fuel : Nat) (text : List Char) : Option (List Char) :=
  (readMembers item fuel text).2

def behindOpening (close : Char) (parts : Nat → List Char → Option (List Char))
    (text : List Char) : Option (List Char) :=
  match skipBlanks text with
  | c :: rest => if c = close then some rest else parts (rest.length + 2) (c :: rest)
  | [] => parts 1 []

section

variable (item : Step) (fuel : Nat) (text : List Char)

theorem behindItems_succ : behindItems item (fuel + 1) text =
    (item.behind text).bind (behindPart ']' (behindItems item fuel)) := by
  rw [behindItems, readItems, Step.behind]
  rcases item text with ⟨found, _ | rest⟩
  · rfl
  cases skipped : skipBlanks rest with
  | nil => simp [behindPart, skipped]
  | cons c rest =>
    by_cases comma : c = ','
    · simp [behindPart, behindItems, skipped, comma]
    · by_cases closed : c = ']' <;> simp [behindPart, skipped, comma, closed]

theorem behindMembers_succ : behindMembers item (fuel + 1) text =
    (behindName text).bind fun rest =>
      (item.behind rest).bind (behindPart '\x7d' (behindMembers item fuel)) := by
  rw [behindMembers, readMembers, behindName]
  rcases skipBlanks text with _ | ⟨c, rest⟩
  · rfl
  by_cases quote : c = '"'
  · rcases named : readString rest with _ | ⟨name, rest⟩
    · simp [quote, named]
    rcases colons : skipBlanks rest with _ | ⟨c, rest⟩
    · simp [quote, named, colons]
    by_cases colon : c = ':'
    · rcases held : item rest with ⟨found, _ | rest⟩
      · simp [quote, named, colons, colon, held, Step.behind]
      rcases ends : skipBlanks rest with _ | ⟨c, rest⟩
      · simp [quote, named, colons, colon, held, Step.behind, behindPart, ends]
      by_cases comma : c = ','
      · simp [quote, named, colons, colon, held, Step.behind, behindPart, behindMembers, ends,
          comma]
      · by_cases closed : c = '\x7d' <;>
          simp [quote, named, colons, colon, held, Step.behind, behindPart, ends, comma, closed]
    · simp [quote, named, colons, colon]
  · simp [quote]

/-- What follows a document depends on its first character. -/
theorem behind_readWith (item : Option Step) : Step.behind (readWith item) text =
    match skipBlanks text with
    | c :: rest =>
      if c = '[' then item.bind fun item =>
        behindOpening ']' (behindItems item) rest
      else if c = '\x7b' then item.bind fun item =>
        behindOpening '\x7d' (behindMembers item) rest
      else (readScalar (c :: rest)).2
    | [] => none := by
  rw [Step.behind, readWith]
  rcases skipBlanks text with _ | ⟨c, rest⟩
  · rfl
  by_cases array : c = '['
  · rcases item with _ | item
    · simp [array, broken]
    rcases starts : skipBlanks rest with _ | ⟨d, rest⟩
    · simp [array, behindOpening, behindItems, starts]
    · by_cases closed : d = ']' <;> simp [array, behindOpening, behindItems, starts, closed]
  by_cases object : c = '\x7b'
  · rcases item with _ | item
    · simp [object, broken]
    rcases starts : skipBlanks rest with _ | ⟨d, rest⟩
    · simp [object, behindOpening, behindMembers, starts]
    · by_cases closed : d = '\x7d' <;> simp [object, behindOpening, behindMembers, starts, closed]
  · simp [array, object]

end

/-- What the one reads to an end, the other reads to the same end. -/
def Extends (first second : List Char → Option (List Char)) : Prop :=
  ∀ text rest, first text = some rest → second text = some rest

section

variable {next next' : List Char → Option (List Char)} {item item' : Step}

theorem behindPart_extends (longer : Extends next next') (close : Char) :
    Extends (behindPart close next) (behindPart close next') := by
  intro text rest read
  unfold behindPart at read ⊢
  generalize skipBlanks text = left at read ⊢
  rcases left with _ | ⟨c, others⟩
  · cases read
  · by_cases comma : c = ','
    · simp only [if_pos comma] at read ⊢
      exact longer _ _ read
    · simpa only [if_neg comma] using read

theorem behindItems_extends (longer : Extends item.behind item'.behind) (fuel : Nat) :
    Extends (behindItems item fuel) (behindItems item' fuel) := by
  induction fuel with
  | zero => nofun
  | succ fuel ih =>
    intro text rest read
    rw [behindItems_succ] at read ⊢
    obtain ⟨left, first, others⟩ := Option.bind_eq_some_iff.mp read
    exact Option.bind_eq_some_iff.mpr
      ⟨left, longer _ _ first, behindPart_extends ih _ _ _ others⟩

theorem behindMembers_extends (longer : Extends item.behind item'.behind) (fuel : Nat) :
    Extends (behindMembers item fuel) (behindMembers item' fuel) := by
  induction fuel with
  | zero => nofun
  | succ fuel ih =>
    intro text rest read
    rw [behindMembers_succ] at read ⊢
    obtain ⟨left, named, read⟩ := Option.bind_eq_some_iff.mp read
    obtain ⟨left', first, others⟩ := Option.bind_eq_some_iff.mp read
    exact Option.bind_eq_some_iff.mpr ⟨left, named, Option.bind_eq_some_iff.mpr
      ⟨left', longer _ _ first, behindPart_extends ih _ _ _ others⟩⟩

theorem behindOpening_extends {parts parts' : Nat → List Char → Option (List Char)}
    (longer : ∀ fuel, Extends (parts fuel) (parts' fuel)) (close : Char) :
    Extends (behindOpening close parts) (behindOpening close parts') := by
  intro text rest read
  unfold behindOpening at read ⊢
  generalize skipBlanks text = left at read ⊢
  rcases left with _ | ⟨c, others⟩
  · exact longer _ _ _ read
  · by_cases closed : c = close
    · simpa only [if_pos closed] using read
    · simp only [if_neg closed] at read ⊢
      exact longer _ _ _ read

/-- A reader that is given more room reads on the same way. -/
theorem readWith_extends {item item' : Option Step}
    (longer : ∀ step ∈ item, ∃ step' ∈ item', Extends step.behind step'.behind) :
    Extends (Step.behind (readWith item)) (Step.behind (readWith item')) := by
  intro text rest read
  rw [behind_readWith] at read ⊢
  generalize skipBlanks text = left at read ⊢
  rcases left with _ | ⟨c, others⟩
  · cases read
  dsimp only at read ⊢
  split at read
  · rename_i array
    obtain ⟨step, given, opened⟩ := Option.bind_eq_some_iff.mp read
    obtain ⟨step', given', longer⟩ := longer step given
    rw [if_pos array]
    exact Option.bind_eq_some_iff.mpr
      ⟨step', given', behindOpening_extends (behindItems_extends longer) _ _ _ opened⟩
  · rename_i array
    rw [if_neg array]
    split at read
    · rename_i object
      obtain ⟨step, given, opened⟩ := Option.bind_eq_some_iff.mp read
      obtain ⟨step', given', longer⟩ := longer step given
      rw [if_pos object]
      exact Option.bind_eq_some_iff.mpr
        ⟨step', given', behindOpening_extends (behindMembers_extends longer) _ _ _ opened⟩
    · rename_i object
      rwa [if_neg object]

/-- With more room, nothing else is found behind a document. -/
theorem readNested_extends (room more : Nat) :
    Extends (readNested room).behind (readNested (room + more)).behind := by
  induction room generalizing more with
  | zero =>
    cases more with
    | zero => exact fun _ _ read => read
    | succ more => exact readWith_extends nofun
  | succ room ih =>
    rw [Nat.add_right_comm]
    exact readWith_extends fun step given => ⟨_, rfl, Option.some.inj given ▸ ih more⟩

end

end StatsRelay.Json
