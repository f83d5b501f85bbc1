import AgentHost.Text.Utf8
import Mathlib.Tactic.IntervalCases
/-!
# Bytes that are read as characters

A byte below 128 is a character by itself, whatever follows it. So a name in front
of other bytes neither breaks them nor mends them. The bytes that a character is
written as are read as that character, and so is a whole text (`decode?_encode`).
-/

namespace AgentHost.Text.Utf8

theorem pieces_ascii {b : UInt8} (h : b < 0x80) (rest : Bytes) :
    pieces (b :: rest) = .char (Char.ofNat b.toNat) :: pieces rest := by
  rw [pieces, first, if_pos h]

theorem decode?_ascii {b : UInt8} (h : b < 0x80) (rest : Bytes) :
    decode? (b :: rest) = (decode? rest).map (Char.ofNat b.toNat :: ·) := by
  rw [decode?, decode?, pieces_ascii h, List.mapM_cons]
  show ((pieces rest).mapM Piece.char?).bind _ = _
  cases (pieces rest).mapM Piece.char? <;> rfl

theorem decode?_ascii_append {front : Bytes} (h : ∀ b ∈ front, b < 0x80) (rest : Bytes) :
    decode? (front ++ rest) = (decode? rest).map (front.map (fun b => Char.ofNat b.toNat) ++ ·) := by
  induction front with
  | nil => simp
  | cons b front ih =>
    rw [List.cons_append, decode?_ascii (h b List.mem_cons_self), ih fun b hb => h b (List.mem_cons_of_mem _ hb),
      Option.map_map]
    rfl

/-! ## Bytes that a text is written as -/

theorem toNat_ofNat_byte {n : Nat} (h : n < 256) : (UInt8.ofNat n).toNat = n := by
  rw [UInt8.toNat_ofNat']
  exact Nat.mod_eq_of_lt h

theorem lead?_two {a : Nat} (hlow : 2 ≤ a) (hhigh : a < 32) :
    lead? (UInt8.ofNat (a + 192)) = some ⟨1, a, 0x80, 0xBF⟩ := by
  interval_cases a <;> rfl

theorem lead?_three {a : Nat} (hhigh : a < 16) : lead? (UInt8.ofNat (a + 224)) =
    some ⟨2, a, if a = 0 then 0xA0 else 0x80, if a = 13 then 0x9F else 0xBF⟩ := by
  interval_cases a <;> rfl

theorem lead?_four {a : Nat} (hhigh : a < 5) : lead? (UInt8.ofNat (a + 240)) =
    some ⟨3, a, if a = 0 then 0x90 else 0x80, if a = 4 then 0x8F else 0xBF⟩ := by
  interval_cases a <;> rfl

/-- A leading byte is no character of its own. -/
theorem first_of_lead? {n : Nat} (hlow : 0x80 ≤ n) (hhigh : n < 256) {l : Lead} (h : lead? (UInt8.ofNat n) = some l)
    (rest : Bytes) :
    first (UInt8.ofNat n) rest = follow [UInt8.ofNat n] l.bits l.following l.low l.high rest := by
  have hnot : ¬ UInt8.ofNat n < 0x80 := by
    rw [UInt8.lt_iff_toNat_lt, toNat_ofNat_byte hhigh]
    exact Nat.not_lt.2 hlow
  rw [first, if_neg hnot, h]

theorem follow_byte {seen : Bytes} {bits n b : Nat} {low high : UInt8} (hlow : low.toNat ≤ b + 128)
    (hhigh : b + 128 ≤ high.toNat) (rest : Bytes) :
    follow seen bits (n + 1) low high (UInt8.ofNat (b + 128) :: rest) =
      follow (seen ++ [UInt8.ofNat (b + 128)]) (bits * 64 + b) n 0x80 0xBF rest := by
  have hbyte : (UInt8.ofNat (b + 128)).toNat = b + 128 :=
    toNat_ofNat_byte (Nat.lt_of_le_of_lt hhigh high.toNat_lt)
  have hin : low ≤ UInt8.ofNat (b + 128) ∧ UInt8.ofNat (b + 128) ≤ high := by
    rw [UInt8.le_iff_toNat_le, UInt8.le_iff_toNat_le, hbyte]
    exact ⟨hlow, hhigh⟩
  rw [follow, if_pos hin, hbyte, Nat.add_sub_cancel]

/-- A byte that is not the first behind its leading byte may be any of 64. -/
theorem follow_later {seen : Bytes} {bits n b : Nat} (h : b < 64) (rest : Bytes) :
    follow seen bits (n + 1) 0x80 0xBF (UInt8.ofNat (b + 128) :: rest) =
      follow (seen ++ [UInt8.ofNat (b + 128)]) (bits * 64 + b) n 0x80 0xBF rest :=
  follow_byte (Nat.le_add_left 128 b) (by show b + 128 ≤ 191; omega) rest

theorem first_two {a b : Nat} (hlow : 2 ≤ a) (hhigh : a < 32) (hb : b < 64) (rest : Bytes) :
    first (UInt8.ofNat (a + 192)) (UInt8.ofNat (b + 128) :: rest) = (.char (Char.ofNat (a * 64 + b)), rest) := by
  rw [first_of_lead? (by omega) (by omega) (lead?_two hlow hhigh), follow_later hb, follow]

theorem first_three {a b c : Nat} (ha : a < 16) (hb : b < 64) (hc : c < 64) (hlow : a = 0 → 32 ≤ b)
    (hhigh : a = 13 → b < 32) (rest : Bytes) :
    first (UInt8.ofNat (a + 224)) (UInt8.ofNat (b + 128) :: UInt8.ofNat (c + 128) :: rest) =
      (.char (Char.ofNat ((a * 64 + b) * 64 + c)), rest) := by
  rw [first_of_lead? (by omega) (by omega) (lead?_three ha), follow_byte, follow_later hc, follow]
  · show UInt8.toNat (if a = 0 then 0xA0 else 0x80) ≤ b + 128
    split
    · have := hlow ‹_›
      show 160 ≤ b + 128
      omega
    · exact Nat.le_add_left 128 b
  · show b + 128 ≤ UInt8.toNat (if a = 13 then 0x9F else 0xBF)
    split
    · have := hhigh ‹_›
      show b + 128 ≤ 159
      omega
    · show b + 128 ≤ 191
      omega

theorem first_four {a b c d : Nat} (ha : a < 5) (hb : b < 64) (hc : c < 64) (hd : d < 64) (hlow : a = 0 → 16 ≤ b)
    (hhigh : a = 4 → b < 16) (rest : Bytes) :
    first (UInt8.ofNat (a + 240))
        (UInt8.ofNat (b + 128) :: UInt8.ofNat (c + 128) :: UInt8.ofNat (d + 128) :: rest) =
      (.char (Char.ofNat (((a * 64 + b) * 64 + c) * 64 + d)), rest) := by
  rw [first_of_lead? (by omega) (by omega) (lead?_four ha), follow_byte, follow_later hc, follow_later hd, follow]
  · show UInt8.toNat (if a = 0 then 0x90 else 0x80) ≤ b + 128
    split
    · have := hlow ‹_›
      show 144 ≤ b + 128
      omega
    · exact Nat.le_add_left 128 b
  · show b + 128 ≤ UInt8.toNat (if a = 4 then 0x8F else 0xBF)
    split
    · have := hhigh ‹_›
      show b + 128 ≤ 143
      omega
    · show b + 128 ≤ 191
      omega

/-- The bytes of a character are read as that character, whatever follows them. -/
theorem first_encodeChar (c : Char) (rest : Bytes) :
    ∃ b bs, String.utf8EncodeChar c = b :: bs ∧ first b (bs ++ rest) = (.char c, rest) := by
  have hvalid : c.val.toNat < 0xD800 ∨ (0xDFFF < c.val.toNat ∧ c.val.toNat < 0x110000) := c.valid
  have hchar : ∀ n, n = c.val.toNat → (Piece.char (Char.ofNat n), rest) = (.char c, rest) := by
    rintro _ rfl
    rw [show Char.ofNat c.val.toNat = c from Char.ofNat_toNat c]
  rw [String.utf8EncodeChar]
  generalize c.val.toNat = v at hvalid hchar
  -- One case for each number of bytes.
  split
  case isTrue =>
    have hascii : UInt8.ofNat v < 0x80 := by
      rw [UInt8.lt_iff_toNat_lt, toNat_ofNat_byte (by omega)]
      exact Nat.lt_succ_of_le ‹_›
    refine ⟨_, _, rfl, ?_⟩
    rw [first, if_pos hascii]
    exact hchar _ (toNat_ofNat_byte (by omega))
  case isFalse =>
    split
    case isTrue => exact ⟨_, _, rfl, (first_two (by omega) (by omega) (by omega) rest).trans (hchar _ (by omega))⟩
    case isFalse =>
      split
      case isTrue =>
        exact ⟨_, _, rfl, (first_three (by omega) (by omega) (by omega) (by omega) (by omega) rest).trans
          (hchar _ (by omega))⟩
      case isFalse =>
        have hsmall : v / 262144 % 8 = v / 262144 := by omega
        rw [hsmall]
        exact ⟨_, _, rfl, (first_four (by omega) (by omega) (by omega) (by omega) (by omega) (by omega) rest).trans
          (hchar _ (by omega))⟩

theorem pieces_encode (cs : List Char) : pieces (encode cs) = cs.map .char := by
  induction cs with
  | nil => simp [encode, pieces]
  | cons c cs ih =>
    obtain ⟨b, bs, hbytes, hfirst⟩ := first_encodeChar c (encode cs)
    have hcons : encode (c :: cs) = b :: (bs ++ encode cs) := by
      rw [encode, List.flatMap_cons, hbytes]
      rfl
    rw [hcons, pieces, hfirst, ih]
    rfl

/-- A text is read back from its bytes. -/
theorem decode?_encode (cs : List Char) : decode? (encode cs) = some cs := by
  rw [decode?, pieces_encode, List.mapM_map]
  induction cs with
  | nil => rfl
  | cons c cs ih =>
    rw [List.mapM_cons, ih]
    rfl

end AgentHost.Text.Utf8
