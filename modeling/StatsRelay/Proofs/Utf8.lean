import StatsRelay.Text.Utf8
import StatsRelay.Text.Lines

/-! Encoding and decoding of texts. What is encoded is decoded again, and nothing else is decoded; an
octet of ASCII, such as a newline, stands for itself wherever it stands: no other character has it
among its octets. -/
namespace StatsRelay.Text.Utf8

theorem scalar?_toNat {least : Nat} {c : Char} (enough : least ≤ c.toNat) :
    scalar? least c.toNat = some c := by
  unfold scalar?
  rw [dif_pos (show c.toNat.isValidChar from c.valid), if_pos enough]
  rfl

private theorem toNat_octet {n : Nat} (small : n < 256) : (UInt8.ofNat n).toNat = n := by
  simp only [UInt8.toNat_ofNat']
  omega

section Sequences

variable {a b c d : UInt8} {rest : Bytes}

private theorem isContinuation_of_toNat (low : 0x80 ≤ b.toNat) (high : b.toNat < 0xC0) :
    isContinuation b = true := by
  have first : 0x80 ≤ b := UInt8.le_iff_toNat_le.mpr low
  have last : b < 0xC0 := UInt8.lt_iff_toNat_lt.mpr high
  simp [isContinuation, first, last]

private theorem decode?_one (ascii : a.toNat < 0x80) :
    decode? (a :: rest) = (scalar? 0 a.toNat).bind fun s => (decode? rest).map (s :: ·) := by
  have first : a < 0x80 := UInt8.lt_iff_toNat_lt.mpr ascii
  rw [decode?.eq_def]
  simp only [first, if_true]
  cases scalar? 0 a.toNat <;> cases decode? rest <;> rfl

private theorem decode?_two (lead : 0xC0 ≤ a.toNat ∧ a.toNat < 0xE0)
    (second : isContinuation b = true) :
    decode? (a :: b :: rest) = (scalar? 0x80 (a.toNat % 32 * 64 + payload b)).bind fun s =>
      (decode? rest).map (s :: ·) := by
  have wide : ¬ a < 0x80 := by rw [UInt8.lt_iff_toNat_lt]; simp; omega
  have low : 0xC0 ≤ a := UInt8.le_iff_toNat_le.mpr lead.1
  have high : a < 0xE0 := UInt8.lt_iff_toNat_lt.mpr lead.2
  rw [decode?.eq_def]
  simp only [wide, second, low, high, decide_true, Bool.and_self, Bool.not_true, if_true, if_false,
    Bool.false_eq_true]
  cases scalar? 0x80 (a.toNat % 32 * 64 + payload b) <;> cases decode? rest <;> rfl

private theorem decode?_three (lead : 0xE0 ≤ a.toNat ∧ a.toNat < 0xF0)
    (second : isContinuation b = true) (third : isContinuation c = true) :
    decode? (a :: b :: c :: rest) =
      (scalar? 0x800 (a.toNat % 16 * 4096 + payload b * 64 + payload c)).bind fun s =>
        (decode? rest).map (s :: ·) := by
  have wide : ¬ a < 0x80 := by rw [UInt8.lt_iff_toNat_lt]; simp; omega
  have wider : ¬ a < 0xE0 := by rw [UInt8.lt_iff_toNat_lt]; simp; omega
  have low : 0xE0 ≤ a := UInt8.le_iff_toNat_le.mpr lead.1
  have high : a < 0xF0 := UInt8.lt_iff_toNat_lt.mpr lead.2
  rw [decode?.eq_def]
  simp only [wide, second, third, wider, low, high, decide_true, decide_false, Bool.and_self,
    Bool.and_false, Bool.not_true, if_true, if_false, Bool.false_eq_true]
  cases scalar? 0x800 (a.toNat % 16 * 4096 + payload b * 64 + payload c) <;>
    cases decode? rest <;> rfl

private theorem decode?_four (lead : 0xF0 ≤ a.toNat ∧ a.toNat < 0xF8)
    (second : isContinuation b = true) (third : isContinuation c = true)
    (fourth : isContinuation d = true) :
    decode? (a :: b :: c :: d :: rest) =
      (scalar? 0x10000 (a.toNat % 8 * 262144 + payload b * 4096 + payload c * 64 + payload d)).bind
        fun s => (decode? rest).map (s :: ·) := by
  have wide : ¬ a < 0x80 := by rw [UInt8.lt_iff_toNat_lt]; simp; omega
  have wider : ¬ a < 0xE0 := by rw [UInt8.lt_iff_toNat_lt]; simp; omega
  have widest : ¬ a < 0xF0 := by rw [UInt8.lt_iff_toNat_lt]; simp; omega
  have low : 0xF0 ≤ a := UInt8.le_iff_toNat_le.mpr lead.1
  have high : a < 0xF8 := UInt8.lt_iff_toNat_lt.mpr lead.2
  rw [decode?.eq_def]
  simp only [wide, second, third, fourth, wider, widest, low, high, decide_true, decide_false,
    Bool.and_self, Bool.and_false, Bool.not_true, if_true, if_false, Bool.false_eq_true]
  cases scalar? 0x10000
    (a.toNat % 8 * 262144 + payload b * 4096 + payload c * 64 + payload d) <;>
    cases decode? rest <;> rfl

end Sequences

theorem toNat_lt (c : Char) : c.toNat < 0x110000 := by
  rcases c.valid with small | large
  · exact Nat.lt_trans small (by decide)
  · exact large.2

private theorem continuation (n : Nat) :
    isContinuation (UInt8.ofNat (n % 64 + 128)) = true ∧
      payload (UInt8.ofNat (n % 64 + 128)) = n % 64 := by
  have octet := toNat_octet (show n % 64 + 128 < 256 by omega)
  refine ⟨isContinuation_of_toNat ?_ ?_, ?_⟩
  · omega
  · omega
  · rw [payload, octet]
    omega

/-- The octets of a character are read as that character, whatever follows them. -/
theorem decode?_char (c : Char) (rest : Bytes) :
    decode? (String.utf8EncodeChar c ++ rest) = (decode? rest).map (c :: ·) := by
  have bound := toNat_lt c
  unfold String.utf8EncodeChar
  simp only [Char.toNat_val]
  obtain ⟨last, value⟩ := continuation c.toNat
  obtain ⟨middle, carried⟩ := continuation (c.toNat / 64)
  obtain ⟨second, held⟩ := continuation (c.toNat / 4096)
  -- One case for each length of a sequence: the lead octet and what the others carry make up c.
  split
  · have lead := toNat_octet (show c.toNat < 256 by omega)
    refine (decode?_one (by omega)).trans ?_
    rw [lead, scalar?_toNat (by omega)]
    rfl
  split
  · have lead := toNat_octet (show c.toNat / 64 % 32 + 192 < 256 by omega)
    refine (decode?_two (by omega) last).trans ?_
    rw [lead, value, show (c.toNat / 64 % 32 + 192) % 32 * 64 + c.toNat % 64 = c.toNat by omega,
      scalar?_toNat (by omega)]
    rfl
  split
  · have lead := toNat_octet (show c.toNat / 4096 % 16 + 224 < 256 by omega)
    refine (decode?_three (by omega) middle last).trans ?_
    rw [lead, value, carried, show (c.toNat / 4096 % 16 + 224) % 16 * 4096 +
      c.toNat / 64 % 64 * 64 + c.toNat % 64 = c.toNat by omega, scalar?_toNat (by omega)]
    rfl
  · have lead := toNat_octet (show c.toNat / 262144 % 8 + 240 < 256 by omega)
    refine (decode?_four (by omega) second middle last).trans ?_
    rw [lead, value, carried, held, show (c.toNat / 262144 % 8 + 240) % 8 * 262144 +
      c.toNat / 4096 % 64 * 4096 + c.toNat / 64 % 64 * 64 + c.toNat % 64 = c.toNat by omega,
      scalar?_toNat (by omega)]
    rfl

theorem decode?_encode (text : List Char) : decode? (encode text) = some text := by
  induction text with
  | nil => rfl
  | cons c rest ih =>
    change decode? (String.utf8EncodeChar c ++ encode rest) = _
    rw [decode?_char, ih]
    rfl

theorem decodeString?_encodeString (text : String) :
    decodeString? (encodeString text) = some text := by
  simp [decodeString?, encodeString, decode?_encode]

theorem scalar?_eq_some {least code : Nat} {c : Char} (found : scalar? least code = some c) :
    c.toNat = code ∧ least ≤ code := by
  unfold scalar? at found
  by_cases valid : code.isValidChar
  · rw [dif_pos valid] at found
    by_cases enough : least ≤ code
    · rw [if_pos enough] at found
      exact ⟨(congrArg Char.toNat (Option.some.inj found)).symm, enough⟩
    · rw [if_neg enough] at found
      cases found
  · rw [dif_neg valid] at found
    cases found

section Sequences

variable {a b c d : UInt8} {text : Char}

private theorem octet_eq (octet : UInt8) {n : Nat} (same : octet.toNat = n) :
    UInt8.ofNat n = octet := by
  rw [← same, UInt8.ofNat_toNat]

private theorem toNat_of_isContinuation (continues : isContinuation b = true) :
    b.toNat = payload b + 128 ∧ payload b < 64 := by
  simp only [isContinuation, Bool.and_eq_true, decide_eq_true_eq, UInt8.le_iff_toNat_le,
    UInt8.lt_iff_toNat_lt, UInt8.reduceToNat] at continues
  unfold payload
  omega

private theorem encode_one (ascii : a < 0x80) (found : scalar? 0 a.toNat = some text) :
    String.utf8EncodeChar text = [a] := by
  obtain ⟨code, _⟩ := scalar?_eq_some found
  simp only [UInt8.lt_iff_toNat_lt, UInt8.reduceToNat] at ascii
  unfold String.utf8EncodeChar
  simp only [Char.toNat_val]
  rw [if_pos (by omega), octet_eq a code.symm]

private theorem lead_bounds {low high : UInt8}
    (lead : (decide (low ≤ a) && decide (a < high)) = true) :
    low.toNat ≤ a.toNat ∧ a.toNat < high.toNat := by
  simpa [UInt8.le_iff_toNat_le, UInt8.lt_iff_toNat_lt] using lead

private theorem encode_two (lead : (0xC0 ≤ a && a < 0xE0) = true) (second : isContinuation b = true)
    (found : scalar? 0x80 (a.toNat % 32 * 64 + payload b) = some text) :
    String.utf8EncodeChar text = [a, b] := by
  obtain ⟨code, least⟩ := scalar?_eq_some found
  obtain ⟨low, high⟩ := lead_bounds lead
  obtain ⟨carried, small⟩ := toNat_of_isContinuation second
  simp only [UInt8.reduceToNat] at low high
  unfold String.utf8EncodeChar
  simp only [Char.toNat_val]
  rw [if_neg (by omega), if_pos (by omega), octet_eq a (by omega),
    octet_eq b (by omega)]

private theorem encode_three (lead : (0xE0 ≤ a && a < 0xF0) = true)
    (second : isContinuation b = true) (third : isContinuation c = true)
    (found : scalar? 0x800 (a.toNat % 16 * 4096 + payload b * 64 + payload c) = some text) :
    String.utf8EncodeChar text = [a, b, c] := by
  obtain ⟨code, least⟩ := scalar?_eq_some found
  obtain ⟨low, high⟩ := lead_bounds lead
  obtain ⟨carried, small⟩ := toNat_of_isContinuation second
  obtain ⟨carried', small'⟩ := toNat_of_isContinuation third
  simp only [UInt8.reduceToNat] at low high
  unfold String.utf8EncodeChar
  simp only [Char.toNat_val]
  rw [if_neg (by omega), if_neg (by omega), if_pos (by omega), octet_eq a (by omega),
    octet_eq b (by omega), octet_eq c (by omega)]

private theorem encode_four (lead : (0xF0 ≤ a && a < 0xF8) = true)
    (second : isContinuation b = true) (third : isContinuation c = true)
    (fourth : isContinuation d = true)
    (found : scalar? 0x10000 (a.toNat % 8 * 262144 + payload b * 4096 + payload c * 64 + payload d) =
      some text) :
    String.utf8EncodeChar text = [a, b, c, d] := by
  obtain ⟨code, least⟩ := scalar?_eq_some found
  obtain ⟨low, high⟩ := lead_bounds lead
  obtain ⟨carried, small⟩ := toNat_of_isContinuation second
  obtain ⟨carried', small'⟩ := toNat_of_isContinuation third
  obtain ⟨carried'', small''⟩ := toNat_of_isContinuation fourth
  simp only [UInt8.reduceToNat] at low high
  unfold String.utf8EncodeChar
  simp only [Char.toNat_val]
  rw [if_neg (by omega), if_neg (by omega), if_neg (by omega), octet_eq a (by omega),
    octet_eq b (by omega), octet_eq c (by omega),
    octet_eq d (by omega)]

end Sequences

private theorem exists_decoded {first : Option Char} {rest : Option (List Char)} {text : List Char}
    (decoded : (do
      let c ← first
      return c :: (← rest)) = some text) :
    ∃ c others, first = some c ∧ rest = some others ∧ text = c :: others := by
  cases first with
  | none => cases decoded
  | some c =>
    cases rest with
    | none => cases decoded
    | some others => exact ⟨c, others, rfl, rfl, (Option.some.inj decoded).symm⟩

/-- Only the octets that a text is encoded in are decoded to it. -/
theorem encode_of_decode? {bytes : Bytes} {text : List Char} (decoded : decode? bytes = some text) :
    encode text = bytes := by
  fun_induction decode? bytes generalizing text with
  | case1 => rw [← Option.some.inj decoded]; rfl
  | case2 a rest ascii ih =>
    obtain ⟨c, others, found, decoded', rfl⟩ := exists_decoded decoded
    rw [encode, List.flatMap_cons, encode_one ascii found, ← encode, ih decoded']
    rfl
  | case5 a wide b rest second lead ih =>
    obtain ⟨c, others, found, decoded', rfl⟩ := exists_decoded decoded
    rw [encode, List.flatMap_cons, encode_two lead (by simpa using second) found, ← encode,
      ih decoded']
    rfl
  | case8 a wide b second lead c rest third wider ih =>
    obtain ⟨s, others, found, decoded', rfl⟩ := exists_decoded decoded
    rw [encode, List.flatMap_cons,
      encode_three wider (by simpa using second) (by simpa using third) found, ← encode, ih decoded']
    rfl
  | case11 a wide b second lead c third wider d rest fourth widest ih =>
    obtain ⟨s, others, found, decoded', rfl⟩ := exists_decoded decoded
    rw [encode, List.flatMap_cons, encode_four widest (by simpa using second)
      (by simpa using third) (by simpa using fourth) found, ← encode, ih decoded']
    rfl
  | _ => cases decoded

theorem decode?_eq_some_iff {bytes : Bytes} {text : List Char} :
    decode? bytes = some text ↔ bytes = encode text := by
  constructor
  · exact fun decoded => (encode_of_decode? decoded).symm
  · rintro rfl
    exact decode?_encode text

theorem isSome_decode?_iff {bytes : Bytes} :
    (decode? bytes).isSome ↔ bytes.toByteArray.IsValidUTF8 := by
  rw [Option.isSome_iff_exists]
  constructor
  · rintro ⟨text, decoded⟩
    exact ⟨text, congrArg List.toByteArray (decode?_eq_some_iff.mp decoded)⟩
  · rintro ⟨text, same⟩
    exact ⟨text, decode?_eq_some_iff.mpr (List.toByteArray_inj.mp same)⟩

private theorem not_isContinuation {octet : UInt8} (ascii : octet < 0x80) :
    isContinuation octet = false := by
  have below : ¬ 0x80 ≤ octet := UInt8.not_le.mpr ascii
  simp [isContinuation, below]

/-- No sequence of octets for one character goes on beyond an octet of ASCII. -/
theorem decode?_append_ascii (bytes rest : Bytes) {octet : UInt8} (ascii : octet < 0x80) :
    decode? (bytes ++ octet :: rest) = (decode? bytes).bind fun text =>
      (decode? (octet :: rest)).map (text ++ ·) := by
  have tail := not_isContinuation ascii
  fun_induction decode? bytes with
  | case1 => simp
  | case2 a bytes first ih =>
    rw [List.cons_append, decode?.eq_def]
    simp only [first, if_true, ih]
    cases scalar? 0 a.toNat <;> cases decode? bytes <;> cases decode? (octet :: rest) <;> rfl
  | case3 a wide =>
    rw [List.cons_append, decode?.eq_def]
    simp [wide, tail]
  | case4 a wide b bytes second =>
    simp only [List.cons_append]
    rw [decode?.eq_def]
    simp [wide, second]
  | case5 a wide b bytes second lead ih =>
    simp only [List.cons_append]
    rw [decode?.eq_def]
    simp only [wide, second, lead, if_true, if_false, ih]
    cases scalar? 0x80 (a.toNat % 32 * 64 + payload b) <;> cases decode? bytes <;>
      cases decode? (octet :: rest) <;> rfl
  | case6 a wide b second lead =>
    simp only [List.cons_append]
    rw [decode?.eq_def]
    simp [wide, second, lead, tail]
  | case7 a wide b second lead c bytes third =>
    simp only [List.cons_append]
    rw [decode?.eq_def]
    simp [wide, second, lead, third]
  | case8 a wide b second lead c bytes third wider ih =>
    simp only [List.cons_append]
    rw [decode?.eq_def]
    simp only [wide, second, lead, third, wider, if_true, if_false, ih]
    cases scalar? 0x800 (a.toNat % 16 * 4096 + payload b * 64 + payload c) <;>
      cases decode? bytes <;> cases decode? (octet :: rest) <;> rfl
  | case9 a wide b second lead c third wider =>
    simp [decode?, wide, second, lead, third, wider, tail]
  | case10 a wide b second lead c third wider d bytes fourth =>
    simp [decode?, wide, second, lead, third, wider, fourth]
  | case11 a wide b second lead c third wider d bytes fourth widest ih =>
    simp only [List.cons_append]
    rw [decode?.eq_def]
    simp only [wide, second, lead, third, wider, fourth, widest, if_true, if_false, ih]
    cases scalar? 0x10000
      (a.toNat % 8 * 262144 + payload b * 4096 + payload c * 64 + payload d) <;>
      cases decode? bytes <;> cases decode? (octet :: rest) <;> rfl
  | case12 a wide b second lead c third wider d bytes fourth widest =>
    simp [decode?, wide, second, lead, third, wider, fourth, widest]

theorem decode?_line (body rest : Bytes) :
    decode? (body ++ Lines.newline :: rest) =
      (decode? body).bind fun text => (decode? rest).map (text ++ '\n' :: ·) := by
  have first : decode? (Lines.newline :: rest) = (decode? rest).map ('\n' :: ·) :=
    decode?_char '\n' rest
  rw [decode?_append_ascii body rest (by decide), first]
  simp only [Option.map_map, Function.comp_def]

theorem decode?_closed (body : Bytes) :
    decode? (body ++ [Lines.newline]) = (decode? body).map (· ++ ['\n']) := by
  rw [decode?_line]
  cases decode? body <;> rfl

private theorem octet_ne_newline {n : Nat} (small : n < 256) (other : n ≠ 10) :
    Lines.newline ≠ UInt8.ofNat n := by
  intro same
  have equal := congrArg UInt8.toNat same
  rw [toNat_octet small] at equal
  exact other equal.symm

theorem newline_mem_char (c : Char) : Lines.newline ∈ String.utf8EncodeChar c ↔ c = '\n' := by
  have bound := toNat_lt c
  constructor
  · intro member
    unfold String.utf8EncodeChar at member
    simp only [Char.toNat_val] at member
    have tail (n : Nat) : Lines.newline ≠ UInt8.ofNat (n % 64 + 128) :=
      octet_ne_newline (by omega) (by omega)
    split at member
    · have equal := congrArg UInt8.toNat (List.mem_singleton.mp member)
      rw [toNat_octet (by omega)] at equal
      exact Char.toNat_inj.mp equal.symm
    split at member
    · have lead := octet_ne_newline (n := c.toNat / 64 % 32 + 192) (by omega) (by omega)
      simp only [List.mem_cons, List.not_mem_nil, tail, lead, or_self] at member
    split at member
    · have lead := octet_ne_newline (n := c.toNat / 4096 % 16 + 224) (by omega) (by omega)
      simp only [List.mem_cons, List.not_mem_nil, tail, lead, or_self] at member
    · have lead := octet_ne_newline (n := c.toNat / 262144 % 8 + 240) (by omega) (by omega)
      simp only [List.mem_cons, List.not_mem_nil, tail, lead, or_self] at member
  · rintro rfl
    decide

theorem newline_mem_encode (text : List Char) : Lines.newline ∈ encode text ↔ '\n' ∈ text := by
  simp [encode, List.mem_flatMap, newline_mem_char]

end StatsRelay.Text.Utf8
