import ScriptBundle.Text.Utf8

/-! Decoding gives back what was encoded. The bytes of one character are read by one pass through the pending
states, from none and back to none, so a text is read character by character, whatever follows. -/
namespace ScriptBundle.Utf8

section Bytes

theorem leadOne {n : Nat} (small : n < 128) : lead (UInt8.ofNat n) = ([Char.ofNat n], none) := by
  have value : (UInt8.ofNat n).toNat = n := UInt8.toNat_ofNat_of_lt (show n < 256 by omega)
  have below : UInt8.ofNat n < 0x80 := UInt8.lt_iff_toNat_lt.mpr (by rw [value]; exact small)
  rw [lead, if_pos below, value]

/- The least first byte of two is C2: anything below would spell a shorter character. -/
theorem leadTwo : ∀ k < 32, 2 ≤ k → lead (UInt8.ofNat (k + 192)) = ([], some ⟨k, 1, 0x80, 0xBF⟩) := by
  decide

theorem leadThree : ∀ k < 16, lead (UInt8.ofNat (k + 224)) =
    ([], some ⟨k, 2, if k = 0 then 0xA0 else 0x80, if k = 13 then 0x9F else 0xBF⟩) := by
  decide

theorem leadFour : ∀ k < 5, lead (UInt8.ofNat (k + 240)) =
    ([], some ⟨k, 3, if k = 0 then 0x90 else 0x80, if k = 4 then 0x8F else 0xBF⟩) := by
  decide

end Bytes

section Characters
variable {n value : Nat} {low high : UInt8} (written : List Char) (rest : Bytes)

theorem decodeLead {b : UInt8} {p : Pending} (leads : lead b = ([], some p)) :
    decodeFrom none written (b :: rest) = decodeFrom (some p) written rest := by
  simp only [decodeFrom, feed, leads, List.reverseAux_nil]

theorem decodeMore (small : n < 64) (above : low.toNat ≤ n + 128) (below : n + 128 ≤ high.toNat) (owed : Nat) :
    decodeFrom (some ⟨value, owed + 1, low, high⟩) written (UInt8.ofNat (n + 128) :: rest) =
      if owed = 0 then decodeFrom none (Char.ofNat (value * 64 + n) :: written) rest
      else decodeFrom (some ⟨value * 64 + n, owed, 0x80, 0xBF⟩) written rest := by
  have byte : (UInt8.ofNat (n + 128)).toNat = n + 128 := UInt8.toNat_ofNat_of_lt (show n + 128 < 256 by omega)
  have inside : low ≤ UInt8.ofNat (n + 128) ∧ UInt8.ofNat (n + 128) ≤ high :=
    ⟨UInt8.le_iff_toNat_le.mpr (by rw [byte]; exact above), UInt8.le_iff_toNat_le.mpr (by rw [byte]; exact below)⟩
  have part : n + 128 - 0x80 = n := by omega
  cases owed with
  | zero =>
    simp only [decodeFrom, feed, if_pos inside, byte, part, Nat.zero_add, if_true, List.reverseAux_cons,
      List.reverseAux_nil]
  | succ more =>
    simp only [decodeFrom, feed, if_pos inside, byte, part, Nat.add_sub_cancel, List.reverseAux_nil,
      show ¬ more + 1 + 1 = 1 by omega, show ¬ more + 1 = 0 by omega, if_false]

theorem decodeRest (small : n < 64) (owed : Nat) :
    decodeFrom (some ⟨value, owed + 1, 0x80, 0xBF⟩) written (UInt8.ofNat (n + 128) :: rest) =
      if owed = 0 then decodeFrom none (Char.ofNat (value * 64 + n) :: written) rest
      else decodeFrom (some ⟨value * 64 + n, owed, 0x80, 0xBF⟩) written rest := by
  apply decodeMore written rest small
  · exact Nat.le_add_left 128 n
  · exact Nat.add_le_add_right (Nat.le_of_lt_succ small) 128

variable {v : Nat}

theorem decodeTwo (least : 0x80 ≤ v) (most : v ≤ 0x7FF) :
    decodeFrom none written (UInt8.ofNat (v / 64 % 32 + 192) :: UInt8.ofNat (v % 64 + 128) :: rest) =
      decodeFrom none (Char.ofNat v :: written) rest := by
  have first : v / 64 % 32 = v / 64 := Nat.mod_eq_of_lt (by omega)
  have whole : v / 64 * 64 + v % 64 = v := by omega
  have leads := leadTwo (v / 64) (by omega) (by omega)
  rw [first, decodeLead _ _ leads, decodeRest _ _ (by omega), if_pos rfl, whole]

/- The bounds on the second byte keep overlong spellings and surrogates out. -/
theorem decodeThree (least : 0x800 ≤ v) (most : v ≤ 0xFFFF) (scalar : v < 0xD800 ∨ 0xDFFF < v) :
    decodeFrom none written (UInt8.ofNat (v / 4096 % 16 + 224) :: UInt8.ofNat (v / 64 % 64 + 128) ::
      UInt8.ofNat (v % 64 + 128) :: rest) = decodeFrom none (Char.ofNat v :: written) rest := by
  have first : v / 4096 % 16 = v / 4096 := Nat.mod_eq_of_lt (by omega)
  have whole : (v / 4096 * 64 + v / 64 % 64) * 64 + v % 64 = v := by omega
  have leads := leadThree (v / 4096) (by omega)
  have above : (if v / 4096 = 0 then 0xA0 else 0x80 : UInt8).toNat ≤ v / 64 % 64 + 128 := by
    split
    · show 0xA0 ≤ _
      omega
    · exact Nat.le_add_left ..
  have below : v / 64 % 64 + 128 ≤ (if v / 4096 = 13 then 0x9F else 0xBF : UInt8).toNat := by
    split <;> simp <;> omega
  rw [first, decodeLead _ _ leads, decodeMore _ _ (by omega) above below, if_neg (by decide),
    decodeRest _ _ (by omega), if_pos rfl, whole]

theorem decodeFour (least : 0x10000 ≤ v) (most : v < 0x110000) :
    decodeFrom none written (UInt8.ofNat (v / 262144 % 8 + 240) :: UInt8.ofNat (v / 4096 % 64 + 128) ::
      UInt8.ofNat (v / 64 % 64 + 128) :: UInt8.ofNat (v % 64 + 128) :: rest) =
      decodeFrom none (Char.ofNat v :: written) rest := by
  have first : v / 262144 % 8 = v / 262144 := Nat.mod_eq_of_lt (by omega)
  have whole : ((v / 262144 * 64 + v / 4096 % 64) * 64 + v / 64 % 64) * 64 + v % 64 = v := by omega
  have leads := leadFour (v / 262144) (by omega)
  have above : (if v / 262144 = 0 then 0x90 else 0x80 : UInt8).toNat ≤ v / 4096 % 64 + 128 := by
    split
    · show 0x90 ≤ _
      omega
    · exact Nat.le_add_left ..
  have below : v / 4096 % 64 + 128 ≤ (if v / 262144 = 4 then 0x8F else 0xBF : UInt8).toNat := by
    split <;> simp <;> omega
  rw [first, decodeLead _ _ leads, decodeMore _ _ (by omega) above below, if_neg (by decide),
    decodeRest _ _ (by omega), if_neg (by decide), decodeRest _ _ (by omega), if_pos rfl, whole]

theorem decodeChar (c : Char) :
    decodeFrom none written (String.utf8EncodeChar c ++ rest) = decodeFrom none (c :: written) rest := by
  have valid : c.val.toNat < 0xD800 ∨ 0xDFFF < c.val.toNat ∧ c.val.toNat < 0x110000 := c.valid
  have same : Char.ofNat c.val.toNat = c := Char.ofNat_toNat c
  unfold String.utf8EncodeChar
  generalize c.val.toNat = v at valid same
  subst same
  dsimp only
  split
  · simp only [List.cons_append, List.nil_append, decodeFrom, feed, leadOne (show v < 128 by omega),
      List.reverseAux_cons, List.reverseAux_nil]
  split
  · exact decodeTwo written rest (by omega) (by omega)
  split
  · exact decodeThree written rest (by omega) (by omega) (by omega)
  · exact decodeFour written rest (by omega) (by omega)

theorem decodeText (text : List Char) :
    decodeFrom none written (text.flatMap String.utf8EncodeChar) = written.reverse ++ text := by
  induction text generalizing written with
  | nil => simp only [List.flatMap_nil, decodeFrom, flush, List.reverseAux_eq, List.append_nil]
  | cons c text ih =>
    rw [List.flatMap_cons, decodeChar, ih, List.reverse_cons, List.append_assoc, List.singleton_append]

end Characters

section Runs
variable (state : Option Pending)

theorem decodeWritten (written : List Char) (bytes : Bytes) :
    decodeFrom state written bytes = written.reverse ++ decodeFrom state [] bytes := by
  induction bytes generalizing state written with
  | nil => simp only [decodeFrom, List.reverseAux_eq, List.reverse_nil, List.nil_append]
  | cons b rest ih =>
    rw [decodeFrom, decodeFrom, ih, ih _ ((feed state b).1.reverseAux [])]
    simp only [List.reverseAux_eq, List.reverse_append, List.reverse_reverse, List.append_nil, List.append_assoc]

theorem decodeCons (b : UInt8) (rest : Bytes) :
    decodeFrom state [] (b :: rest) = (feed state b).1 ++ decodeFrom (feed state b).2 [] rest := by
  rw [decodeFrom, decodeWritten, List.reverseAux_eq, List.append_nil, List.reverse_reverse]

end Runs

theorem decodeEncode (text : String) : decode (encode text) = text := by
  rw [decode, encode, decodeText, List.reverse_nil, List.nil_append, String.ofList_toList]

end ScriptBundle.Utf8
