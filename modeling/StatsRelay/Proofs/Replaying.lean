import Mathlib.Algebra.GroupWithZero.Nat
import StatsRelay.Log.Replay
import StatsRelay.Proofs.Lines
import StatsRelay.Proofs.SortedMap
import StatsRelay.Proofs.Utf8

/-! What a replay does with the segments between newlines. A finding does not see the end of its
line, so the lines that are read can be taken for segments. -/
namespace StatsRelay.Log

open StatsRelay.Stats StatsRelay.Text.Utf8

namespace Finding

def record? : Finding → Option Record
  | record found => some found
  | _ => none

def isRejected : Finding → Bool
  | notText | invalid _ => true
  | _ => false

theorem ofLine_cases (line : Bytes) :
    (decodeString? line = none ∧ ofLine line = .notText) ∨
      ∃ text, decodeString? line = some text ∧
        ((Text.trim text = "" ∧ ofLine line = .blank) ∨
          Text.trim text ≠ "" ∧
            ((∃ found, Record.decodeLine (Text.trim text) = .ok found ∧
                ofLine line = .record found) ∨
              ∃ fault, Record.decodeLine (Text.trim text) = .error fault ∧
                ofLine line = .invalid fault)) := by
  unfold ofLine
  cases decodeString? line with
  | none => exact .inl ⟨rfl, rfl⟩
  | some text =>
    refine .inr ⟨text, rfl, ?_⟩
    by_cases blank : Text.trim text = ""
    · exact .inl ⟨blank, if_pos blank⟩
    · refine .inr ⟨blank, ?_⟩
      simp only [if_neg blank]
      cases Record.decodeLine (Text.trim text) with
      | ok found => exact .inl ⟨found, rfl, rfl⟩
      | error fault => exact .inr ⟨fault, rfl, rfl⟩

theorem ofLine_append {octet : UInt8} {c : Char} (ascii : octet < 0x80)
    (character : decode? [octet] = some [c]) (blank : Text.isBlank c = true) (segment : Bytes) :
    ofLine (segment ++ [octet]) = ofLine segment := by
  unfold ofLine decodeString?
  rw [decode?_append_ascii segment [] ascii, character]
  cases decode? segment with
  | none => rfl
  | some text =>
    have trimmed : Text.trim (.ofList (text ++ [c])) = Text.trim (.ofList text) := by
      rw [String.ofList_append]
      exact Text.trim_append_blanks (by simpa using blank) _
    simp only [Option.map_some, Option.bind_some, trimmed]

theorem ofLine_newline (segment : Bytes) :
    ofLine (segment ++ [Text.Lines.newline]) = ofLine segment :=
  ofLine_append (by decide) rfl (by decide) segment

theorem ofLine_return (segment : Bytes) : ofLine (segment ++ [13]) = ofLine segment :=
  ofLine_append (by decide) rfl (by decide) segment

end Finding

def findings (bytes : Bytes) : List Finding := (bytes.splitOn Text.Lines.newline).map Finding.ofLine

namespace Replay

def settle (logger : Logger) (clock : Clock) (journal : Journal) (numbered : List (Bytes × Nat)) :
    Journal :=
  numbered.foldl (fun journal (line, number) =>
    dispatch logger clock number line journal (Finding.ofLine line)) journal

theorem foldl_step (logger : Logger) (clock : Clock) (lines : List Bytes) (replay : Replay) :
    lines.foldl (step logger clock) replay =
      ⟨replay.lines + lines.length, (lines.map Finding.ofLine).foldl Summary.add replay.summary,
        settle logger clock replay.journal (lines.zipIdx (replay.lines + 1))⟩ := by
  induction lines generalizing replay with
  | nil => rfl
  | cons line rest ih =>
    rw [List.foldl_cons, ih, step]
    simp [settle, Nat.add_assoc, Nat.add_comm 1]

/-- What each line adds to an observation is added by all of them together. -/
theorem settle_observed {α : Type} {logger : Logger} {clock : Clock} (observe : Journal → List α)
    (added : Bytes × Nat → List α)
    (adds : ∀ journal line number,
      observe (dispatch logger clock number line journal (Finding.ofLine line)) =
        observe journal ++ added (line, number))
    (journal : Journal) (numbered : List (Bytes × Nat)) :
    observe (settle logger clock journal numbered) = observe journal ++ numbered.flatMap added := by
  induction numbered generalizing journal with
  | nil => simp [settle]
  | cons first rest ih =>
    rw [List.flatMap_cons, ← List.append_assoc, ← adds]
    exact ih _

/-- What the lines hold is what the segments hold, but for a last segment that is empty and so is no
line. -/
theorem findings_split (bytes : Bytes) :
    findings bytes = (Text.Lines.split bytes).map Finding.ofLine ∨
      findings bytes = (Text.Lines.split bytes).map Finding.ofLine ++ [.blank] :=
  Text.Lines.map_splitOn Finding.ofLine Finding.ofLine_newline bytes

theorem replay_eq (logger : Logger) (clock : Clock) (journal : Journal) (bytes : Bytes) :
    replay logger clock journal ⟨bytes, none⟩ =
      (.ok ((findings bytes).foldl Summary.add .empty),
        settle logger clock journal ((Text.Lines.split bytes).zipIdx 1)) := by
  have done : Replay.run logger clock journal (Text.Lines.split bytes) = _ :=
    foldl_step logger clock _ _
  rw [replay, Source.lines]
  simp only [done, start, Nat.zero_add]
  rcases findings_split bytes with same | longer
  · rw [same]
  · rw [longer, List.foldl_append]
    rfl

end Replay

namespace Summary

private def counted? (records : List Record) (kind : Kind) : Option (Kind × Nat) :=
  let count := records.countP (·.kind = kind)
  if count = 0 then none else some (kind, count)

def countByKind (records : List Record) : SortedMap Kind Nat :=
  .ofList (Kind.all.filterMap (counted? records))

def of (records : List Record) (rejected : Nat) : Summary :=
  ⟨records.length, rejected, countByKind records⟩

private theorem counted?_distinct (records : List Record) :
    ((Kind.all.filterMap (counted? records)).map (·.1)).Nodup := by
  have named {kind : Kind} {entry : Kind × Nat} (counted : counted? records kind = some entry) :
      entry.1 = kind := by
    unfold counted? at counted
    grind
  refine List.pairwise_map.mpr (List.pairwise_filterMap.mpr ?_)
  have distinct : (Kind.all).Nodup := by decide
  apply distinct.imp
  intro first second apart entry counted entry' counted'
  rw [named counted, named counted']
  exact apart

theorem get?_countByKind (records : List Record) (kind : Kind) :
    (countByKind records).get? kind =
      if records.countP (·.kind = kind) = 0 then none
      else some (records.countP (·.kind = kind)) := by
  have listed : kind ∈ Kind.all := by cases kind <;> decide
  rw [countByKind, SortedMap.get?_ofList (counted?_distinct records)]
  apply Option.ext
  intro count
  rw [lookup_eq_some_iff_mem (counted?_distinct records), List.mem_filterMap]
  unfold counted?
  grind

theorem accept_of (records : List Record) (rejected : Nat) (record : Record) :
    (of records rejected).accept record.kind = of (records ++ [record]) rejected := by
  have perKind : (countByKind records).insert record.kind
      (((countByKind records).get? record.kind).getD 0 + 1) =
        countByKind (records ++ [record]) := by
    apply SortedMap.ext_get?
    intro kind
    rw [SortedMap.get?_insert, get?_countByKind, get?_countByKind, get?_countByKind,
      List.countP_append, List.countP_singleton]
    by_cases same : kind = record.kind
    · subst same
      by_cases none : records.countP (·.kind = record.kind) = 0 <;> simp [none]
    · simp [same, Ne.symm same]
  simp [accept, of, perKind]

theorem add_of (records : List Record) (rejected : Nat) (finding : Finding) :
    (of records rejected).add finding =
      of (records ++ finding.record?.toList) (rejected + finding.isRejected.toNat) := by
  cases finding with
  | blank => simp [add, Finding.record?, Finding.isRejected]
  | notText => simp [add, reject, of, Finding.record?, Finding.isRejected]
  | invalid fault => simp [add, reject, of, Finding.record?, Finding.isRejected]
  | record record => exact accept_of records rejected record

theorem foldl_add_of (records : List Record) (rejected : Nat) (findings : List Finding) :
    findings.foldl add (of records rejected) =
      of (records ++ findings.filterMap Finding.record?)
        (rejected + findings.countP Finding.isRejected) := by
  induction findings generalizing records rejected with
  | nil => simp
  | cons finding rest ih =>
    have found : (finding :: rest).filterMap Finding.record? =
        finding.record?.toList ++ rest.filterMap Finding.record? := by
      cases record : finding.record? <;> simp [record]
    have counted : (finding :: rest).countP Finding.isRejected =
        finding.isRejected.toNat + rest.countP Finding.isRejected := by
      cases rejects : finding.isRejected <;> simp [rejects, Nat.add_comm]
    rw [List.foldl_cons, add_of, ih, found, counted, List.append_assoc, Nat.add_assoc]

theorem sum_counts (records : List Record) :
    (Kind.all.map fun kind => records.countP (·.kind = kind)).sum = records.length := by
  have all : Kind.all =
    [.call, .putDocument, .initialization, .search, .remove, .optimize, .setSchema] := rfl
  rw [all]
  induction records with
  | nil => rfl
  | cons record rest ih =>
    rw [List.length_cons, ← ih]
    cases kind : record.kind <;> simp [List.countP_cons, kind] <;> omega

private theorem sum_counted? (records : List Record) (kinds : List Kind) :
    ((kinds.filterMap (counted? records)).map (·.2)).sum =
      (kinds.map fun kind => records.countP (·.kind = kind)).sum := by
  induction kinds with
  | nil => rfl
  | cons kind rest ih =>
    rw [List.filterMap_cons, counted?]
    by_cases none : records.countP (·.kind = kind) = 0 <;> simp [none, ih]

theorem sum_countByKind (records : List Record) :
    ((countByKind records).entries.map (·.2)).sum = records.length := by
  have same := (SortedMap.ofList_entries_perm (counted?_distinct records)).map (·.2)
  rw [countByKind, same.sum_nat, sum_counted?, sum_counts]

end Summary

end StatsRelay.Log
