import Mathlib.Data.List.Basic
import ScriptBundle.Declaration
import ScriptBundle.Proofs.Lines
import ScriptBundle.Proofs.Lossy
import ScriptBundle.Storage.FileTree

/-! Broken bytes stay on their line. A byte below 80 is never part of a longer sequence: it ends what is pending and
stands for itself. So decoding can be cut at every line feed, and no line feed comes from anything else. -/
namespace ScriptBundle
namespace Utf8

/- What is pending takes no byte below 80, and whatever completes it is far above the line feed. -/
structure Pending.Sound (p : Pending) : Prop where
  low : 0x80 ≤ p.low
  value : 1 ≤ p.value ∨ 0x90 ≤ p.low

def Proper : Option Pending → Prop
  | none => True
  | some p => p.Sound

theorem properNone : Proper none := trivial

section States
variable {state : Option Pending} {b : UInt8}

theorem leadProper (b : UInt8) : Proper (lead b).2 := by
  rcases leadCases b with ascii | ⟨p, leads, _⟩ | stray
  · rw [leadAscii ascii]
    trivial
  · obtain ⟨_, low, _, _, value⟩ := leadBounds leads
    rw [leads]
    exact ⟨low, value⟩
  · rw [stray]
    trivial

theorem Pending.Sound.grows {p : Pending} (sound : p.Sound) (taken : p.Takes b) : 16 ≤ (p.next b).value := by
  have least : p.low.toNat ≤ b.toNat := UInt8.le_iff_toNat_le.mp taken.1
  show 16 ≤ p.value * 64 + (b.toNat - 0x80)
  rcases sound.value with value | low
  · omega
  · have bound : 0x90 ≤ p.low.toNat := UInt8.le_iff_toNat_le.mp low
    omega

theorem feedProper (proper : Proper state) (b : UInt8) : Proper (feed state b).2 := by
  cases state with
  | none => exact leadProper b
  | some p =>
    by_cases taken : p.Takes b
    · have grows := Pending.Sound.grows proper taken
      rw [feedTaken taken]
      split
      · trivial
      · exact ⟨UInt8.le_refl _, .inl (Nat.le_trans (by decide) grows)⟩
    · rw [feedRefused taken]
      exact leadProper b

theorem feedAscii (proper : Proper state) (ascii : b < 0x80) :
    feed state b = (flush state ++ [Char.ofNat b.toNat], none) := by
  cases state with
  | none => exact leadAscii ascii
  | some p =>
    have refused : ¬ p.Takes b := fun taken =>
      UInt8.not_lt.mpr (UInt8.le_trans (Pending.Sound.low proper) taken.1) ascii
    rw [feedRefused refused, leadAscii ascii]
    rfl

theorem charNotFeed {n : Nat} (other : n ≠ 10) : Char.ofNat n ≠ '\n' := by
  intro same
  by_cases valid : n.isValidChar
  · have value : Char.ofNat n = Char.ofNatAux n valid := dif_pos valid
    exact other (congrArg Char.toNat (value.symm.trans same))
  · have nothing : Char.ofNat n = '\x00' := dif_neg valid
    exact absurd (nothing.symm.trans same) (by decide)

theorem leadPlain (other : b ≠ 0x0A) : '\n' ∉ (lead b).1 := by
  have number : b.toNat ≠ 10 := fun same => other (UInt8.toNat_inj.mp same)
  rcases leadCases b with ascii | ⟨p, leads, _⟩ | stray
  · rw [leadAscii ascii, List.mem_singleton]
    exact (charNotFeed number).symm
  · rw [leads]
    exact List.not_mem_nil
  · rw [stray, List.mem_singleton]
    decide

theorem feedPlain (proper : Proper state) (other : b ≠ 0x0A) : '\n' ∉ (feed state b).1 := by
  cases state with
  | none => exact leadPlain other
  | some p =>
    by_cases taken : p.Takes b
    · have grows := Pending.Sound.grows proper taken
      rw [feedTaken taken]
      split
      · rw [List.mem_singleton]
        exact (charNotFeed (Nat.ne_of_gt (Nat.lt_of_lt_of_le (by decide) grows))).symm
      · exact List.not_mem_nil
    · rw [feedRefused taken, List.mem_cons, not_or]
      exact ⟨by decide, leadPlain other⟩

end States

section Runs
variable {state : Option Pending}

theorem decodeCut {b : UInt8} (proper : Proper state) (ascii : b < 0x80) (before after : Bytes) :
    decodeFrom state [] (before ++ b :: after) =
      decodeFrom state [] before ++ Char.ofNat b.toNat :: decodeFrom none [] after := by
  induction before generalizing state with
  | nil =>
    rw [List.nil_append, decodeCons, feedAscii proper ascii, List.append_assoc, List.singleton_append]
    rfl
  | cons first before ih =>
    rw [List.cons_append, decodeCons, decodeCons, ih (feedProper proper first), List.append_assoc]

theorem decodePlain (proper : Proper state) {bytes : Bytes} (plain : 0x0A ∉ bytes) :
    '\n' ∉ decodeFrom state [] bytes := by
  induction bytes generalizing state with
  | nil => cases state <;> simp [decodeFrom, flush, replacement]
  | cons b rest ih =>
    have other : b ≠ 0x0A := (List.ne_of_not_mem_cons plain).symm
    rw [decodeCons, List.mem_append, not_or]
    exact ⟨feedPlain proper other, ih (feedProper proper b) (List.not_mem_of_not_mem_cons plain)⟩

end Runs

theorem decodeAround {b : UInt8} (ascii : b < 0x80) (before after : Bytes) :
    decode (before ++ b :: after) = decode before ++ String.singleton (Char.ofNat b.toNat) ++ decode after := by
  apply String.toList_inj.mp
  simp only [decode, decodeCut properNone ascii, String.toList_append, String.toList_ofList, String.toList_singleton,
    List.append_assoc, List.singleton_append]

theorem decodeOneLine {bytes : Bytes} (plain : 0x0A ∉ bytes) : Lines.OneLine (decode bytes) := by
  rw [Lines.OneLine, decode, String.toList_ofList]
  exact decodePlain properNone plain

end Utf8

namespace Lines
open Utf8 (Bytes decode decodeAround decodeOneLine)

theorem linesDecode (bytes : Bytes) : linesOf (decode bytes) = (bytes.splitOn 0x0A).map decode := by
  induction bytes using Text.piecewise (0x0A : UInt8) with
  | plain piece plain => rw [linesPlain (decodeOneLine plain), List.splitOn_eq_singleton plain, List.map_singleton]
  | cut piece rest plain ih =>
    have feed : String.singleton (Char.ofNat (0x0A : UInt8).toNat) = "\n" := by decide
    rw [decodeAround (by decide), feed, linesAppend, ih, linesPlain (decodeOneLine plain),
      List.splitOn_append_cons_self, List.splitOn_eq_singleton plain, List.map_append, List.map_singleton]

theorem numberedDecode (bytes : Bytes) :
    numbered (decode bytes) =
      (bytes.splitOn 0x0A).zipIdx.map fun piece => (UInt32.ofNat (piece.2 + 1), decode piece.1) := by
  rw [numberedLines, linesDecode, List.zipIdx_map, List.map_map]
  rfl

end Lines

namespace Folder
open Utf8 (Bytes decode encode Lossy)

theorem readHeld {f : Folder} {name : String} {bytes : Bytes} (held : f.tree.read (f.pathOf name) = .ok bytes) :
    Storage.read f name = .ok (some (decode bytes)) := by
  show f.read name = _
  unfold read
  rw [held]

theorem brokenBytesStay {f : Folder} {name : String} {bytes : Bytes} (held : f.tree.read (f.pathOf name) = .ok bytes) :
    ∃ text, Storage.read f name = .ok (some text) ∧
      (∀ part decoded, Lossy part decoded.toList ↔ decoded = decode part) ∧ text = decode bytes ∧
      Lines.numbered text =
        (bytes.splitOn 0x0A).zipIdx.map (fun piece => (UInt32.ofNat (piece.2 + 1), decode piece.1)) ∧
      (∀ index line, (bytes.splitOn 0x0A)[index]? = some (encode line) →
        (Lines.numbered text)[index]? = some (UInt32.ofNat (index + 1), line)) ∧
      ∀ symbols ordinal, Declaration.ofUnit symbols ⟨name, ordinal, text⟩ =
        (bytes.splitOn 0x0A).zipIdx.flatMap fun piece =>
          Declaration.ofLine symbols name (UInt32.ofNat (piece.2 + 1), decode piece.1) := by
  have lines := Lines.numberedDecode bytes
  refine ⟨decode bytes, readHeld held, fun part decoded => Utf8.lossyExact, rfl, lines, fun index line found => ?_,
    fun symbols ordinal => ?_⟩
  · simp only [lines, List.getElem?_map, List.getElem?_zipIdx, found, Option.map_some, Utf8.decodeEncode, Nat.zero_add]
  · show (Lines.numbered (decode bytes)).flatMap _ = _
    rw [lines, List.flatMap_map]

theorem latinCommentStays :
    let bytes : Bytes := [0x2F, 0x2F, 0x20, 0x63, 0x61, 0x66, 0xE9, 0x0A] ++ encode "const SHEETS = [];"
    let f : Folder := ⟨".", ⟨[(["work"], .folder), (["work", "Code.gs"], .file bytes)], ["work"]⟩⟩
    f.tree.read (f.pathOf "Code.gs") = .ok bytes ∧
      ∃ text, Storage.read f "Code.gs" = .ok (some text) ∧
        (Lines.numbered text)[1]? = some (2, "const SHEETS = [];") := by
  intro bytes f
  have held : f.tree.read (f.pathOf "Code.gs") = .ok bytes := by decide +kernel
  obtain ⟨text, read, _, _, _, valid, _⟩ := brokenBytesStay held
  exact ⟨held, text, read, valid 1 "const SHEETS = [];" (by rfl)⟩

end Folder
end ScriptBundle
