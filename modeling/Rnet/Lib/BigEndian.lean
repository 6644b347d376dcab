import Mathlib.Data.Nat.Digits.Defs
import Mathlib.Tactic.Ring

/-! # Big-endian byte fields

Fixed-width unsigned fields as lists of bytes, most significant byte first. `toBytes w n` writes the
low `w` bytes of `n`, `ofBytes l` reads a whole list, and `field input i w` reads the `w` bytes of
`input` from offset `i`, the way a parser slices its input. A writer produces a concatenation of
fields, so `field` is computed on `++` by skipping whole pieces or taking the first one. -/

namespace Rnet.Lib.BigEndian

abbrev Bytes := List UInt8

def ofBytes : Bytes → ℕ
  | [] => 0
  | b :: l => b.toNat * 256 ^ l.length + ofBytes l

/-- The low `w` bytes of `n`, most significant first. -/
def toBytes : ℕ → ℕ → Bytes
  | 0, _ => []
  | w + 1, n => UInt8.ofNat (n / 256 ^ w) :: toBytes w n

/-- The unsigned field of width `w` at offset `i`. -/
def field (input : Bytes) (i w : ℕ) : ℕ := ofBytes ((input.drop i).take w)

@[simp] theorem length_toBytes : ∀ w n : ℕ, (toBytes w n).length = w
  | 0, _ => rfl
  | w + 1, n => by simp [toBytes, length_toBytes w n]

theorem ofBytes_toBytes_mod : ∀ w n : ℕ, ofBytes (toBytes w n) = n % 256 ^ w
  | 0, n => by simp [toBytes, ofBytes, Nat.mod_one]
  | w + 1, n => by
    rw [toBytes, ofBytes, length_toBytes, ofBytes_toBytes_mod w n, Nat.mod_pow_succ]
    simp only [UInt8.toNat_ofNat']
    ring

theorem ofBytes_toBytes (h : n < 256 ^ w) : ofBytes (toBytes w n) = n := by
  rw [ofBytes_toBytes_mod, Nat.mod_eq_of_lt h]

/-! ### Fields of a concatenation -/

theorem field_append_right (h : a.length ≤ i) : field (a ++ b) i w = field b (i - a.length) w := by
  rw [field, field, List.drop_append, List.drop_of_length_le h, List.nil_append]

theorem field_toBytes_append (b : Bytes) (h : n < 256 ^ w) : field (toBytes w n ++ b) 0 w = n := by
  rw [field, List.drop_zero, List.take_append_of_le_length (by simp),
    List.take_of_length_le (by simp), ofBytes_toBytes h]

theorem field_toBytes (h : n < 256 ^ w) : field (toBytes w n) 0 w = n := by
  rw [← List.append_nil (toBytes w n), field_toBytes_append [] h]

theorem field_cons (x : UInt8) (b : Bytes) (i w : ℕ) : field (x :: b) (i + 1) w = field b i w := rfl

theorem field_skip (b : Bytes) (h : w ≤ i) : field (toBytes w n ++ b) i v = field b (i - w) v := by
  rw [field_append_right (by simpa using h), length_toBytes]

/-! ### Reading an input back -/

theorem ofBytes_lt : ∀ l : Bytes, ofBytes l < 256 ^ l.length
  | [] => by simp [ofBytes]
  | b :: l => by
    have hb : (b.toNat + 1) * 256 ^ l.length ≤ 256 * 256 ^ l.length :=
      Nat.mul_le_mul_right _ b.toNat_lt
    have hl := ofBytes_lt l
    rw [ofBytes, List.length_cons, Nat.pow_succ']
    rw [Nat.add_mul, Nat.one_mul] at hb
    omega

theorem toBytes_add (b n : ℕ) : ∀ w, w ≤ k → toBytes w (b * 256 ^ k + n) = toBytes w n
  | 0, _ => rfl
  | w + 1, h => by
    have hk : b * 256 ^ k = 256 ^ w * (256 * (b * 256 ^ (k - (w + 1)))) := by
      conv_lhs => rw [← Nat.sub_add_cancel h, pow_add, pow_succ]
      ring
    have hd : UInt8.ofNat ((b * 256 ^ k + n) / 256 ^ w) = UInt8.ofNat (n / 256 ^ w) := by
      rw [hk, Nat.mul_add_div (by positivity), ← UInt8.ofNat_mod_size, Nat.mul_add_mod,
        UInt8.ofNat_mod_size]
    rw [toBytes, toBytes, hd, toBytes_add b n w (by omega)]

theorem toBytes_ofBytes : ∀ l : Bytes, toBytes l.length (ofBytes l) = l
  | [] => rfl
  | b :: l => by
    have hd : (b.toNat * 256 ^ l.length + ofBytes l) / 256 ^ l.length = b.toNat := by
      rw [Nat.mul_comm, Nat.mul_add_div (by positivity), Nat.div_eq_of_lt (ofBytes_lt l), add_zero]
    rw [ofBytes, List.length_cons, toBytes, hd, toBytes_add _ _ _ le_rfl, toBytes_ofBytes l,
      UInt8.ofNat_toNat]

theorem field_lt (input : Bytes) (i w : ℕ) : field input i w < 256 ^ w :=
  (ofBytes_lt _).trans_le (Nat.pow_le_pow_right (by omega) (by simp))

theorem drop_eq_field (input : Bytes) (h : i + w ≤ input.length) :
    input.drop i = toBytes w (field input i w) ++ input.drop (i + w) := by
  have hl : ((input.drop i).take w).length = w := by simp; omega
  have ht := toBytes_ofBytes ((input.drop i).take w)
  rw [hl] at ht
  rw [field, ht, ← List.drop_drop, List.take_append_drop]

theorem drop_eq_headD (input : Bytes) (h : i < input.length) :
    input.drop i = (input.drop i).headD 0 :: input.drop (i + 1) := by
  rw [List.drop_eq_getElem_cons h, List.headD_cons]

/-! ### Canonical codecs -/

theorem ok_of_check {ε α : Type} {e : ε} {v : α} {x : Except ε α} {c : Prop} [Decidable c]
    (h : (if c then .error e else x) = .ok v) : ¬ c ∧ x = .ok v := by
  split_ifs at h with hc
  exact ⟨hc, h⟩

/-- **A canonical codec.** The encoder succeeds exactly on the values that fit. The decoder accepts
exactly the encodings of valid values, inverts the encoder, and is inverted by it; so no two inputs
decode to one value. -/
structure Canonical {ε α : Type} (valid fits : α → Prop) (enc : α → Except ε Bytes)
    (dec : Bytes → Except ε α) : Prop where
  encodes : ∀ v, (∃ b, enc v = .ok b) ↔ fits v
  accepts : ∀ b, (∃ v, dec b = .ok v) ↔ ∃ v, valid v ∧ enc v = .ok b
  decode_encode : ∀ v b, valid v → enc v = .ok b → dec b = .ok v
  encode_decode : ∀ v b, dec b = .ok v → enc v = .ok b
  injective : ∀ v b b', dec b = .ok v → dec b' = .ok v → b = b'

theorem Canonical.of_iff {ε α : Type} {valid fits : α → Prop} {enc : α → Except ε Bytes}
    {dec : Bytes → Except ε α} (hf : ∀ v, (∃ b, enc v = .ok b) ↔ fits v)
    (h : ∀ b v, dec b = .ok v ↔ valid v ∧ enc v = .ok b) : Canonical valid fits enc dec where
  encodes := hf
  accepts b := exists_congr (h b)
  decode_encode v b hv he := (h b v).mpr ⟨hv, he⟩
  encode_decode v b hd := ((h b v).mp hd).2
  injective v b b' hb hb' :=
    Except.ok.inj (((h b v).mp hb).2.symm.trans ((h b' v).mp hb').2)

end Rnet.Lib.BigEndian
