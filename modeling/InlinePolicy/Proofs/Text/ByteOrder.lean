import Mathlib

/-!
# The order of texts by their bytes

Texts are compared by their characters.  UTF-8 keeps that order: where two texts differ first, so do
their bytes, and in the same direction (`bytes_lt_bytes`).
-/

namespace InlinePolicy.Text

/-- The bytes of a text in UTF-8. -/
def bytes (s : String) : List UInt8 := s.toByteArray.data.toList

theorem bytes_eq_flatMap (s : String) : bytes s = s.toList.flatMap String.utf8EncodeChar := by
  rw [bytes, ← String.utf8Encode_toList, List.utf8Encode, List.data_toByteArray]

/-! ## Bytes that decide -/

/-- The first bytes are below the others whatever follows. -/
def Precedes (first second : List UInt8) : Prop :=
  ∀ rest rest' : List UInt8, first ++ rest < second ++ rest'

theorem precedes_cons {m n : ℕ} (lt : m < n) (small : n < 256) (tail tail' : List UInt8) :
    Precedes (.ofNat m :: tail) (.ofNat n :: tail') := by
  intro rest rest'
  refine List.cons_lt_cons_iff.2 (.inl ?_)
  rwa [UInt8.lt_iff_toNat_lt, UInt8.toNat_ofNat_of_lt' (lt.trans small),
    UInt8.toNat_ofNat_of_lt' small]

theorem Precedes.append {first second : List UInt8} (h : Precedes first second)
    (tail tail' : List UInt8) : Precedes (first ++ tail) (second ++ tail') := by
  intro rest rest'
  rw [List.append_assoc, List.append_assoc]
  exact h _ _

theorem Precedes.append_left {first second : List UInt8} (h : Precedes first second)
    (start : List UInt8) : Precedes (start ++ first) (start ++ second) := by
  intro rest rest'
  rw [List.append_assoc, List.append_assoc]
  exact List.append_left_lt (h rest rest')

/-! ## Bytes of characters -/

/-- The number `n` in a byte with a mark, and `k` bytes more for the lower bits. -/
def marked (mark : ℕ) : ℕ → ℕ → List UInt8
  | 0, n => [.ofNat (n + mark)]
  | k + 1, n => marked mark k (n / 64) ++ [.ofNat (n % 64 + 128)]

/-- If the upper bits are the same, the last byte decides. -/
theorem precedes_marked {mark k m n : ℕ} (lt : m < n) (small : n / 64 ^ k + mark < 256) :
    Precedes (marked mark k m) (marked mark k n) := by
  induction k generalizing m n with
  | zero =>
    rw [pow_zero, Nat.div_one] at small
    exact precedes_cons (by omega) small [] []
  | succ k ih =>
    rw [pow_succ', ← Nat.div_div_eq_div_mul] at small
    rcases (Nat.div_le_div_right (c := 64) lt.le).lt_or_eq with upper | upper
    · exact (ih upper small).append _ _
    · have lower : m % 64 + 128 < n % 64 + 128 := by omega
      rw [marked, marked, upper]
      exact (precedes_cons lower (by omega) [] []).append_left _

theorem exists_marked_eq_cons (mark k n : ℕ) :
    ∃ tail, marked mark k n = .ofNat (n / 64 ^ k + mark) :: tail := by
  induction k generalizing n with
  | zero => exact ⟨[], by rw [pow_zero, Nat.div_one]; rfl⟩
  | succ k ih =>
    obtain ⟨tail, first⟩ := ih (n / 64)
    rw [Nat.div_div_eq_div_mul, ← pow_succ'] at first
    exact ⟨tail ++ [.ofNat (n % 64 + 128)], by rw [marked, first, List.cons_append]⟩

/-- The mark tells how many bytes there are: the larger it is, the more. -/
theorem precedes_marked_of_lt {mark mark' j k m n : ℕ}
    (lt : m / 64 ^ j + mark < n / 64 ^ k + mark') (small : n / 64 ^ k + mark' < 256) :
    Precedes (marked mark j m) (marked mark' k n) := by
  obtain ⟨tail, first⟩ := exists_marked_eq_cons mark j m
  obtain ⟨tail', second⟩ := exists_marked_eq_cons mark' k n
  rw [first, second]
  exact precedes_cons lt small tail tail'

theorem toNat_lt (c : Char) : c.toNat < 0x110000 := by
  rcases c.valid with low | ⟨-, high⟩
  · exact low.trans (by norm_num)
  · exact high

/-- The mark in the first byte of a code point, and how many bytes follow. -/
def form (n : ℕ) : ℕ × ℕ :=
  if n ≤ 0x7f then (0, 0)
  else if n ≤ 0x7ff then (192, 1)
  else if n ≤ 0xffff then (224, 2)
  else (240, 3)

theorem utf8EncodeChar_eq_marked (c : Char) :
    String.utf8EncodeChar c = marked (form c.toNat).1 (form c.toNat).2 c.toNat := by
  have valid := toNat_lt c
  unfold String.utf8EncodeChar form
  simp only [Char.toNat_val]
  generalize c.toNat = n at *
  split_ifs with one two three
  · rfl
  · have lead : n / 64 % 32 = n / 64 := Nat.mod_eq_of_lt (by omega)
    rw [lead]
    rfl
  · have lead : n / 4096 % 16 = n / 64 / 64 := by omega
    rw [lead]
    rfl
  · have lead : n / 262144 % 8 = n / 64 / 64 / 64 := by omega
    have next : n / 4096 = n / 64 / 64 := by omega
    rw [lead, next]
    rfl

/-- A longer code point has a larger first byte. -/
theorem form_eq_or_lt {m n : ℕ} (lt : m < n) (valid : n < 0x110000) :
    form m = form n ∨
      m / 64 ^ (form m).2 + (form m).1 < n / 64 ^ (form n).2 + (form n).1 := by
  unfold form
  split_ifs <;> simp <;> omega

theorem precedes_utf8EncodeChar {c d : Char} (h : c < d) :
    Precedes (String.utf8EncodeChar c) (String.utf8EncodeChar d) := by
  have lt : c.toNat < d.toNat := h
  have valid := toNat_lt d
  have small : d.toNat / 64 ^ (form d.toNat).2 + (form d.toNat).1 < 256 := by
    unfold form
    split_ifs <;> simp <;> omega
  rw [utf8EncodeChar_eq_marked, utf8EncodeChar_eq_marked]
  rcases form_eq_or_lt lt valid with same | lead
  · rw [same]
    exact precedes_marked lt small
  · exact precedes_marked_of_lt lead small

/-! ## Bytes of texts -/

theorem flatMap_utf8EncodeChar_lt {xs ys : List Char} (h : xs < ys) :
    xs.flatMap String.utf8EncodeChar < ys.flatMap String.utf8EncodeChar := by
  induction xs generalizing ys with
  | nil =>
    cases ys with
    | nil => exact absurd h (List.lt_irrefl [])
    | cons y ys =>
      obtain ⟨tail, first⟩ := exists_marked_eq_cons (form y.toNat).1 (form y.toNat).2 y.toNat
      rw [List.flatMap_cons, utf8EncodeChar_eq_marked, first]
      exact List.nil_lt_cons _ _
  | cons x xs ih =>
    cases ys with
    | nil => exact absurd h (List.not_lt_nil _)
    | cons y ys =>
      rw [List.flatMap_cons, List.flatMap_cons]
      rcases List.cons_lt_cons_iff.1 h with lt | ⟨rfl, lt⟩
      · exact precedes_utf8EncodeChar lt _ _
      · exact List.append_left_lt (ih lt)

theorem bytes_lt_bytes {s t : String} (h : s < t) : bytes s < bytes t := by
  rw [bytes_eq_flatMap, bytes_eq_flatMap]
  exact flatMap_utf8EncodeChar_lt (String.lt_iff.1 h)

end InlinePolicy.Text
