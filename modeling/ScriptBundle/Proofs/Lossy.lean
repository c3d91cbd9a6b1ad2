import ScriptBundle.Proofs.Decoding

/-! What lossy decoding is, told without its states. Bytes that spell a character are read as that character. Where
they spell none, the longest stretch that still begins a spelling, or one byte if there is none, is read as a
replacement character. -/
namespace ScriptBundle.Utf8

def Begins (bytes : Bytes) : Prop := ∃ c : Char, bytes <+: String.utf8EncodeChar c

structure Broken (taken rest : Bytes) : Prop where
  unspelled : ∀ c : Char, ¬ String.utf8EncodeChar c <+: taken ++ rest
  begun : taken.length = 1 ∨ taken ≠ [] ∧ Begins taken
  longest : ∀ more, more <+: taken ++ rest → Begins more → more.length ≤ taken.length

inductive Lossy : Bytes → List Char → Prop where
  | nil : Lossy [] []
  | char {rest : Bytes} {chars : List Char} (c : Char) (decoded : Lossy rest chars) :
      Lossy (String.utf8EncodeChar c ++ rest) (c :: chars)
  | broken {taken rest : Bytes} {chars : List Char} (broken : Broken taken rest) (decoded : Lossy rest chars) :
      Lossy (taken ++ rest) (replacement :: chars)

section Spelling
variable {k j i m : Nat}

theorem valueOf {v : Nat} (valid : v.isValidChar) : (Char.ofNat v).val.toNat = v := by
  have same : Char.ofNat v = Char.ofNatAux v valid := dif_pos valid
  rw [same]
  rfl

theorem spellTwo (least : 2 ≤ k) (most : k < 32) (last : m < 64) :
    String.utf8EncodeChar (Char.ofNat (k * 64 + m)) = [UInt8.ofNat (k + 192), UInt8.ofNat (m + 128)] := by
  have value := valueOf (show (k * 64 + m).isValidChar from .inl (by omega))
  have first : (k * 64 + m) / 64 % 32 = k := by omega
  have second : (k * 64 + m) % 64 = m := by omega
  unfold String.utf8EncodeChar
  simp only [value]
  rw [if_neg (by omega), if_pos (by omega), first, second]

theorem spellThree (most : k < 16) (middle : j < 64) (last : m < 64) (least : k = 0 → 32 ≤ j)
    (scalar : k = 13 → j < 32) :
    String.utf8EncodeChar (Char.ofNat ((k * 64 + j) * 64 + m)) =
      [UInt8.ofNat (k + 224), UInt8.ofNat (j + 128), UInt8.ofNat (m + 128)] := by
  have valid : ((k * 64 + j) * 64 + m).isValidChar := by
    rw [Nat.isValidChar]
    omega
  have value := valueOf valid
  have first : ((k * 64 + j) * 64 + m) / 4096 % 16 = k := by omega
  have second : ((k * 64 + j) * 64 + m) / 64 % 64 = j := by omega
  have third : ((k * 64 + j) * 64 + m) % 64 = m := by omega
  unfold String.utf8EncodeChar
  simp only [value]
  rw [if_neg (by omega), if_neg (by omega), if_pos (by omega), first, second, third]

theorem spellFour (most : k < 5) (middle : j < 64) (later : i < 64) (last : m < 64) (least : k = 0 → 16 ≤ j)
    (scalar : k = 4 → j < 16) :
    String.utf8EncodeChar (Char.ofNat (((k * 64 + j) * 64 + i) * 64 + m)) =
      [UInt8.ofNat (k + 240), UInt8.ofNat (j + 128), UInt8.ofNat (i + 128), UInt8.ofNat (m + 128)] := by
  have valid : (((k * 64 + j) * 64 + i) * 64 + m).isValidChar := by
    rw [Nat.isValidChar]
    omega
  have value := valueOf valid
  have first : (((k * 64 + j) * 64 + i) * 64 + m) / 262144 % 8 = k := by omega
  have second : (((k * 64 + j) * 64 + i) * 64 + m) / 4096 % 64 = j := by omega
  have third : (((k * 64 + j) * 64 + i) * 64 + m) / 64 % 64 = i := by omega
  have fourth : (((k * 64 + j) * 64 + i) * 64 + m) % 64 = m := by omega
  unfold String.utf8EncodeChar
  simp only [value]
  rw [if_neg (by omega), if_neg (by omega), if_neg (by omega), first, second, third, fourth]

end Spelling

namespace Pending

def next (p : Pending) (b : UInt8) : Pending := ⟨p.value * 64 + (b.toNat - 0x80), p.owed - 1, 0x80, 0xBF⟩

def Takes (p : Pending) (b : UInt8) : Prop := p.low ≤ b ∧ b ≤ p.high

inductive Fills : Pending → Bytes → Char → Prop where
  | last {p : Pending} {b : UInt8} (one : p.owed = 1) (taken : p.Takes b) : Fills p [b] (Char.ofNat (p.next b).value)
  | more {p : Pending} {b : UInt8} {rest : Bytes} {c : Char} (several : p.owed ≠ 1) (taken : p.Takes b)
      (others : Fills (p.next b) rest c) : Fills p (b :: rest) c

theorem tailByte {b : UInt8} (least : 0x80 ≤ b) (most : b ≤ 0xBF) :
    ∃ n, n < 64 ∧ b = UInt8.ofNat (n + 128) ∧ b.toNat = n + 128 ∧ b.toNat - 0x80 = n := by
  have above : 0x80 ≤ b.toNat := UInt8.le_iff_toNat_le.mp least
  have below : b.toNat ≤ 0xBF := UInt8.le_iff_toNat_le.mp most
  have whole : b.toNat = b.toNat - 0x80 + 128 := by omega
  exact ⟨b.toNat - 0x80, by omega, by rw [← whole, UInt8.ofNat_toNat], whole, rfl⟩

variable {value owed : Nat} {low high : UInt8} {more : Bytes} {c : Char}

theorem fillsLast (fills : Fills ⟨value, 1, 0x80, 0xBF⟩ more c) :
    ∃ m, m < 64 ∧ more = [UInt8.ofNat (m + 128)] ∧ c = Char.ofNat (value * 64 + m) := by
  cases fills with
  | @last _ b one taken =>
    obtain ⟨m, small, byte, _, part⟩ := tailByte taken.1 taken.2
    have sum : value * 64 + (b.toNat - 0x80) = value * 64 + m := congrArg _ part
    exact ⟨m, small, congrArg (fun b => [b]) byte, congrArg Char.ofNat sum⟩
  | more several => exact absurd rfl several

theorem fillsFirst (least : 0x80 ≤ low) (most : high ≤ 0xBF) (fills : Fills ⟨value, owed + 2, low, high⟩ more c) :
    ∃ m rest, m < 64 ∧ low.toNat ≤ m + 128 ∧ m + 128 ≤ high.toNat ∧ more = UInt8.ofNat (m + 128) :: rest ∧
      Fills ⟨value * 64 + m, owed + 1, 0x80, 0xBF⟩ rest c := by
  cases fills with
  | last one => cases one
  | @more _ b rest _ several taken others =>
    obtain ⟨m, small, byte, number, part⟩ := tailByte (UInt8.le_trans least taken.1) (UInt8.le_trans taken.2 most)
    have above : low.toNat ≤ b.toNat := UInt8.le_iff_toNat_le.mp taken.1
    have below : b.toNat ≤ high.toNat := UInt8.le_iff_toNat_le.mp taken.2
    rw [number] at above below
    have later : Fills ⟨value * 64 + (b.toNat - 0x80), owed + 1, 0x80, 0xBF⟩ rest c := others
    rw [part] at later
    exact ⟨m, rest, small, above, below, congrArg (· :: rest) byte, later⟩

end Pending

section Leads
open Pending
variable {b : UInt8} {p : Pending} {more : Bytes} {c : Char}

theorem leadAscii (ascii : b < 0x80) : lead b = ([Char.ofNat b.toNat], none) := if_pos ascii

theorem leadTable : ∀ n < 256, 128 ≤ n →
    (lead (UInt8.ofNat n)).1 = [] ∧ (lead (UInt8.ofNat n)).2.isSome = true ∧ 194 ≤ n ∧ n < 245 ∨
      lead (UInt8.ofNat n) = ([replacement], none) := by
  decide +kernel

theorem leadCases (b : UInt8) :
    b < 0x80 ∨ (∃ p, lead b = ([], some p) ∧ 194 ≤ b.toNat ∧ b.toNat < 245) ∨ lead b = ([replacement], none) := by
  by_cases ascii : b < 0x80
  · exact .inl ascii
  · have high : 128 ≤ b.toNat := UInt8.le_iff_toNat_le.mp (UInt8.not_lt.mp ascii)
    have table := leadTable b.toNat b.toNat_lt high
    rw [UInt8.ofNat_toNat] at table
    rcases table with ⟨written, pending, range⟩ | stray
    · obtain ⟨p, pending⟩ := Option.isSome_iff_exists.mp pending
      exact .inr (.inl ⟨p, Prod.ext written pending, range⟩)
    · exact .inr (.inr stray)

theorem leadPending (leads : lead b = ([], some p)) :
    (∃ k, 2 ≤ k ∧ k < 32 ∧ b = UInt8.ofNat (k + 192) ∧ p = ⟨k, 1, 0x80, 0xBF⟩) ∨
    (∃ k, k < 16 ∧ b = UInt8.ofNat (k + 224) ∧
      p = ⟨k, 2, if k = 0 then 0xA0 else 0x80, if k = 13 then 0x9F else 0xBF⟩) ∨
    (∃ k, k < 5 ∧ b = UInt8.ofNat (k + 240) ∧
      p = ⟨k, 3, if k = 0 then 0x90 else 0x80, if k = 4 then 0x8F else 0xBF⟩) := by
  have byte : UInt8.ofNat b.toNat = b := UInt8.ofNat_toNat
  have range : 194 ≤ b.toNat ∧ b.toNat < 245 := by
    rcases leadCases b with ascii | ⟨_, _, range⟩ | stray
    · cases (leadAscii ascii).symm.trans leads
    · exact range
    · cases stray.symm.trans leads
  have pending {base : Nat} {q : Pending} (above : base ≤ b.toNat)
      (same : lead (UInt8.ofNat (b.toNat - base + base)) = ([], some q)) :
      b = UInt8.ofNat (b.toNat - base + base) ∧ p = q := by
    rw [Nat.sub_add_cancel above, byte] at same ⊢
    rw [leads] at same
    exact ⟨rfl, Option.some.inj (congrArg Prod.snd same)⟩
  by_cases two : b.toNat < 224
  · exact .inl ⟨b.toNat - 192, by omega, by omega, pending (by omega) (leadTwo _ (by omega) (by omega))⟩
  by_cases three : b.toNat < 240
  · exact .inr (.inl ⟨b.toNat - 224, by omega, pending (by omega) (leadThree _ (by omega))⟩)
  · exact .inr (.inr ⟨b.toNat - 240, by omega, pending (by omega) (leadFour _ (by omega))⟩)

theorem leadBounds (leads : lead b = ([], some p)) :
    p.owed ≠ 0 ∧ 0x80 ≤ p.low ∧ p.low ≤ p.high ∧ p.high ≤ 0xBF ∧ (1 ≤ p.value ∨ 0x90 ≤ p.low) := by
  rcases leadPending leads with ⟨k, least, _, -, rfl⟩ | ⟨k, most, -, rfl⟩ | ⟨k, most, -, rfl⟩
  · have wide : (0x80 : UInt8) ≤ 0xBF := by decide
    exact ⟨Nat.one_ne_zero, UInt8.le_refl _, wide, UInt8.le_refl _, .inl (Nat.le_of_succ_le least)⟩
  · clear leads
    revert k
    decide
  · clear leads
    revert k
    decide

theorem leadSpells (leads : lead b = ([], some p)) (fills : Fills p more c) :
    String.utf8EncodeChar c = b :: more := by
  obtain ⟨_, low, _, high, _⟩ := leadBounds leads
  rcases leadPending leads with ⟨k, least, most, rfl, rfl⟩ | ⟨k, most, rfl, rfl⟩ | ⟨k, most, rfl, rfl⟩
  · obtain ⟨m, small, rfl, rfl⟩ := fillsLast fills
    exact spellTwo least most small
  · obtain ⟨j, rest, middle, above, below, rfl, others⟩ := fillsFirst low high fills
    obtain ⟨m, small, rfl, rfl⟩ := fillsLast others
    have least : k = 0 → 32 ≤ j := by
      intro zero
      rw [if_pos zero] at above
      have bound : 160 ≤ j + 128 := above
      omega
    have scalar : k = 13 → j < 32 := by
      intro surrogates
      rw [if_pos surrogates] at below
      have bound : j + 128 ≤ 159 := below
      omega
    exact spellThree most middle small least scalar
  · obtain ⟨j, rest, middle, above, below, rfl, others⟩ := fillsFirst low high fills
    obtain ⟨i, rest, later, _, _, rfl, ending⟩ := fillsFirst (UInt8.le_refl _) (UInt8.le_refl _) others
    obtain ⟨m, small, rfl, rfl⟩ := fillsLast ending
    have least : k = 0 → 16 ≤ j := by
      intro zero
      rw [if_pos zero] at above
      have bound : 144 ≤ j + 128 := above
      omega
    have scalar : k = 4 → j < 16 := by
      intro last
      rw [if_pos last] at below
      have bound : j + 128 ≤ 143 := below
      omega
    exact spellFour most middle later small least scalar

end Leads

section Progress
variable {p : Pending} {b : UInt8}

theorem feedTaken (taken : p.Takes b) :
    feed (some p) b = if p.owed = 1 then ([Char.ofNat (p.next b).value], none) else ([], some (p.next b)) :=
  if_pos taken

theorem feedRefused (refused : ¬ p.Takes b) : feed (some p) b = (replacement :: (lead b).1, (lead b).2) :=
  if_neg refused

theorem decodeFresh (b : UInt8) (rest : Bytes) :
    decodeFrom none [] (b :: rest) = (lead b).1 ++ decodeFrom (lead b).2 [] rest :=
  decodeCons none b rest

theorem decodeRefused (refused : ¬ p.Takes b) (rest : Bytes) :
    decodeFrom (some p) [] (b :: rest) = replacement :: decodeFrom none [] (b :: rest) := by
  rw [decodeCons, decodeFresh, feedRefused refused, List.cons_append]

theorem leadProgress (b : UInt8) : (lead b).1 ≠ [] ∨ ∃ p, (lead b).2 = some p := by
  rcases leadCases b with ascii | ⟨p, leads, _⟩ | stray
  · rw [leadAscii ascii]
    exact .inl (List.cons_ne_nil _ _)
  · rw [leads]
    exact .inr ⟨p, rfl⟩
  · rw [stray]
    exact .inl (List.cons_ne_nil _ _)

theorem decodePending (p : Pending) (bytes : Bytes) : decodeFrom (some p) [] bytes ≠ [] := by
  induction bytes generalizing p with
  | nil => exact List.cons_ne_nil _ _
  | cons b rest ih =>
    by_cases taken : p.Takes b
    · rw [decodeCons, feedTaken taken]
      split
      · exact List.cons_ne_nil _ _
      · exact ih (p.next b)
    · rw [decodeRefused taken]
      exact List.cons_ne_nil _ _

theorem decodeEmpty {bytes : Bytes} (nothing : decodeFrom none [] bytes = []) : bytes = [] := by
  cases bytes with
  | nil => rfl
  | cons b rest =>
    rw [decodeFresh] at nothing
    obtain ⟨unwritten, later⟩ := List.append_eq_nil_iff.mp nothing
    rcases leadProgress b with written | ⟨p, pending⟩
    · exact absurd unwritten written
    · rw [pending] at later
      exact absurd later (decodePending p rest)

end Progress

namespace Pending

theorem fillable {p : Pending} (owing : p.owed ≠ 0) (room : p.low ≤ p.high) : ∃ more c, Fills p more c := by
  obtain ⟨value, owed, low, high⟩ := p
  induction owed generalizing value low high with
  | zero => exact absurd rfl owing
  | succ owed ih =>
    have taken : Takes ⟨value, owed + 1, low, high⟩ low := ⟨UInt8.le_refl _, room⟩
    cases owed with
    | zero => exact ⟨_, _, .last rfl taken⟩
    | succ owed =>
      have wide : (0x80 : UInt8) ≤ 0xBF := by decide
      obtain ⟨more, c, fills⟩ := ih (value * 64 + (low.toNat - 0x80)) 0x80 0xBF (Nat.succ_ne_zero _) wide
      exact ⟨_, c, .more (by simp) taken fills⟩

end Pending

structure Owes (seen : Bytes) (p : Pending) : Prop where
  owing : p.owed ≠ 0
  room : p.low ≤ p.high
  silent : ∀ rest, decodeFrom none [] (seen ++ rest) = decodeFrom (some p) [] rest
  spells : ∀ more c, p.Fills more c → String.utf8EncodeChar c = seen ++ more

theorem leadOwes {b : UInt8} {p : Pending} (leads : lead b = ([], some p)) : Owes [b] p := by
  obtain ⟨owing, _, room, _, _⟩ := leadBounds leads
  exact ⟨owing, room, fun rest => decodeLead [] rest leads, fun more c fills => leadSpells leads fills⟩

theorem decodeSpelled (c : Char) (rest : Bytes) :
    decodeFrom none [] (String.utf8EncodeChar c ++ rest) = c :: decodeFrom none [] rest := by
  rw [decodeChar, decodeWritten]
  rfl

theorem spellingSome (c : Char) : String.utf8EncodeChar c ≠ [] := by
  intro nothing
  have alone := decodeSpelled c []
  rw [nothing] at alone
  cases alone

namespace Owes
variable {seen rest : Bytes} {p : Pending} {b : UInt8} (owes : Owes seen p)
include owes

theorem next (taken : p.Takes b) (several : p.owed ≠ 1) : Owes (seen ++ [b]) (p.next b) := by
  have owing := owes.owing
  have wide : (0x80 : UInt8) ≤ 0xBF := by decide
  refine ⟨?_, wide, fun rest => ?_, fun more c fills => ?_⟩
  · show p.owed - 1 ≠ 0
    omega
  · rw [List.append_assoc, owes.silent, List.singleton_append, decodeCons, feedTaken taken, if_neg several]
    rfl
  · rw [List.append_assoc]
    exact owes.spells (b :: more) c (.more several taken fills)

theorem complete (taken : p.Takes b) (one : p.owed = 1) :
    String.utf8EncodeChar (Char.ofNat (p.next b).value) = seen ++ [b] :=
  owes.spells [b] _ (.last one taken)

theorem begun : Begins seen := by
  obtain ⟨more, c, fills⟩ := p.fillable owes.owing owes.room
  exact ⟨c, more, (owes.spells more c fills).symm⟩

theorem started : seen ≠ [] := by
  rintro rfl
  exact decodePending p [] (owes.silent []).symm

theorem refused (refused : ¬ p.Takes b) : ¬ Begins (seen ++ [b]) := by
  rintro ⟨c, more, spelled⟩
  have alone := decodeSpelled c []
  rw [List.append_nil, ← spelled, List.append_assoc, owes.silent, List.singleton_append, decodeRefused refused] at alone
  exact List.cons_ne_nil _ _ (decodeEmpty (List.cons.inj alone).2)

theorem unspelled (c : Char) : ¬ String.utf8EncodeChar c <+: seen := by
  rintro ⟨more, spelled⟩
  obtain ⟨tail, d, fills⟩ := p.fillable owes.owing owes.room
  have alone := decodeSpelled d []
  rw [List.append_nil, owes.spells tail d fills, ← spelled, List.append_assoc, decodeSpelled] at alone
  have nothing := (List.append_eq_nil_iff.mp (decodeEmpty (List.cons.inj alone).2)).2
  subst nothing
  cases fills

theorem broken (stops : ∀ b ∈ rest.head?, ¬ p.Takes b) : Broken seen rest := by
  have within (more : Bytes) (starts : more <+: seen ++ rest) (begins : Begins more) : more.length ≤ seen.length := by
    cases rest with
    | nil =>
      rw [List.append_nil] at starts
      exact starts.length_le
    | cons b rest =>
      refine Nat.le_of_not_lt fun longer => ?_
      have onward : seen ++ [b] <+: seen ++ b :: rest := ⟨rest, List.append_assoc seen [b] rest⟩
      have reached : (seen ++ [b]).length ≤ more.length := by
        rw [List.length_append, List.length_singleton]
        exact longer
      obtain ⟨c, spelled⟩ := begins
      exact owes.refused (stops b rfl) ⟨c, (List.prefix_of_prefix_length_le onward starts reached).trans spelled⟩
  refine ⟨fun c starts => ?_, .inr ⟨owes.started, owes.begun⟩, within⟩
  have short := within _ starts ⟨c, List.prefix_refl _⟩
  exact owes.unspelled c (List.prefix_of_prefix_length_le starts (List.prefix_append seen rest) short)

end Owes

section Single
variable {b : UInt8}

theorem spellAscii (ascii : b < 0x80) : String.utf8EncodeChar (Char.ofNat b.toNat) = [b] := by
  have small : b.toNat < 128 := UInt8.lt_iff_toNat_lt.mp ascii
  have value := valueOf (show b.toNat.isValidChar from .inl (by omega))
  unfold String.utf8EncodeChar
  simp only [value]
  rw [if_pos (by omega)]
  exact congrArg (fun b => [b]) UInt8.ofNat_toNat

theorem strayBegins (stray : lead b = ([replacement], none)) : ¬ Begins [b] := by
  rintro ⟨c, more, spelled⟩
  have alone := decodeSpelled c []
  rw [List.append_nil, ← spelled, List.singleton_append, decodeFresh, stray] at alone
  obtain ⟨same, nothing⟩ := List.cons.inj alone
  have spelling : String.utf8EncodeChar replacement = [0xEF, 0xBF, 0xBD] := rfl
  rw [decodeEmpty nothing, ← same, spelling] at spelled
  cases spelled

theorem strayBroken (stray : lead b = ([replacement], none)) (rest : Bytes) : Broken [b] rest := by
  have never (more : Bytes) (starts : more <+: [b] ++ rest) (begins : Begins more) : more = [] := by
    cases more with
    | nil => rfl
    | cons first more =>
      obtain ⟨c, spelled⟩ := begins
      obtain ⟨same, _⟩ := List.cons_prefix_cons.mp starts
      subst same
      exact absurd ⟨c, (List.prefix_append [first] more).trans spelled⟩ (strayBegins stray)
  refine ⟨fun c starts => ?_, .inl rfl, fun more starts begins => ?_⟩
  · exact spellingSome c (never _ starts ⟨c, List.prefix_refl _⟩)
  · rw [never more starts begins]
    exact Nat.zero_le _

end Single

theorem lossyFrom (bytes : Bytes) :
    Lossy bytes (decodeFrom none [] bytes) ∧
      ∀ seen p, Owes seen p → Lossy (seen ++ bytes) (decodeFrom (some p) [] bytes) := by
  induction bytes with
  | nil => exact ⟨.nil, fun seen p owes => .broken (owes.broken fun b none => by cases none) .nil⟩
  | cons b rest ih =>
    obtain ⟨fresh, pending⟩ := ih
    have first : Lossy (b :: rest) (decodeFrom none [] (b :: rest)) := by
      rw [decodeFresh]
      -- a character by itself, the start of a sequence, or a stray byte
      rcases leadCases b with ascii | ⟨p, leads, _⟩ | stray
      · have char := Lossy.char (Char.ofNat b.toNat) fresh
        rw [spellAscii ascii] at char
        rw [leadAscii ascii]
        exact char
      · rw [leads]
        exact pending [b] p (leadOwes leads)
      · rw [stray]
        exact .broken (strayBroken stray rest) fresh
    refine ⟨first, fun seen p owes => ?_⟩
    by_cases taken : p.Takes b
    · rw [decodeCons, feedTaken taken]
      split
      · rename_i one
        have char := Lossy.char (Char.ofNat (p.next b).value) fresh
        rw [owes.complete taken one, List.append_assoc] at char
        exact char
      · rename_i several
        have later := pending (seen ++ [b]) (p.next b) (owes.next taken several)
        rw [List.append_assoc] at later
        exact later
    · rw [decodeRefused taken]
      exact .broken (owes.broken fun other head => by cases head; exact taken) first

theorem lossyCases {bytes : Bytes} {chars : List Char} (lossy : Lossy bytes chars) :
    (bytes = [] ∧ chars = []) ∨
    (∃ c rest others, bytes = String.utf8EncodeChar c ++ rest ∧ chars = c :: others ∧ Lossy rest others) ∨
    (∃ taken rest others, bytes = taken ++ rest ∧ Broken taken rest ∧ chars = replacement :: others ∧
      Lossy rest others) := by
  cases lossy with
  | nil => exact .inl ⟨rfl, rfl⟩
  | char c decoded => exact .inr (.inl ⟨c, _, _, rfl, rfl, decoded⟩)
  | broken broken decoded => exact .inr (.inr ⟨_, _, _, rfl, broken, rfl, decoded⟩)

namespace Broken
variable {taken rest other behind : Bytes}

theorem nonempty (broken : Broken taken rest) : taken ≠ [] := by
  rcases broken.begun with one | ⟨taken, _⟩
  · rintro rfl
    cases one
  · exact taken

theorem least (broken : Broken taken rest) (also : Broken other behind) (same : taken ++ rest = other ++ behind) :
    taken.length ≤ other.length := by
  rcases broken.begun with one | ⟨_, begins⟩
  · rw [one]
    exact List.length_pos_iff.mpr also.nonempty
  · exact also.longest taken ⟨rest, same⟩ begins

end Broken

theorem lossyUnique {bytes : Bytes} {chars others : List Char} (lossy : Lossy bytes chars) (also : Lossy bytes others) :
    chars = others := by
  induction lossy generalizing others with
  | nil =>
    rcases lossyCases also with ⟨_, same⟩ | ⟨d, behind, later, same, _⟩ | ⟨other, behind, later, same, broken, _⟩
    · exact same.symm
    · exact absurd (List.append_eq_nil_iff.mp same.symm).1 (spellingSome d)
    · exact absurd (List.append_eq_nil_iff.mp same.symm).1 broken.nonempty
  | @char rest chars c decoded ih =>
    rcases lossyCases also with
      ⟨same, _⟩ | ⟨d, behind, later, same, rfl, decoded⟩ | ⟨other, behind, later, same, broken, _⟩
    · exact absurd (List.append_eq_nil_iff.mp same).1 (spellingSome c)
    · have read := congrArg (decodeFrom none []) same
      rw [decodeSpelled, decodeSpelled] at read
      obtain ⟨rfl, _⟩ := List.cons.inj read
      rw [List.append_cancel_left same] at ih
      rw [ih decoded]
    · exact absurd ⟨rest, same⟩ (broken.unspelled c)
  | @broken taken rest chars broken decoded ih =>
    rcases lossyCases also with
      ⟨same, _⟩ | ⟨d, behind, later, same, _⟩ | ⟨other, behind, later, same, twin, rfl, decoded⟩
    · exact absurd (List.append_eq_nil_iff.mp same).1 broken.nonempty
    · exact absurd ⟨behind, same.symm⟩ (broken.unspelled d)
    · have length := Nat.le_antisymm (broken.least twin same) (twin.least broken same.symm)
      obtain ⟨_, rfl⟩ := List.append_inj same length
      rw [ih decoded]

theorem lossyExact {bytes : Bytes} {text : String} : Lossy bytes text.toList ↔ text = decode bytes := by
  have decoded : Lossy bytes (decode bytes).toList := by
    rw [decode, String.toList_ofList]
    exact (lossyFrom bytes).1
  constructor
  · intro lossy
    exact String.toList_inj.mp (lossyUnique lossy decoded)
  · rintro rfl
    exact decoded

end ScriptBundle.Utf8
