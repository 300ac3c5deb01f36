import KernelCatalog.Text.Utf8
import Mathlib.Data.List.Sort
import Mathlib.Data.String.Basic

/-!
# The order of texts

Texts are compared character by character. The bytes of a greater character are greater than those
of a smaller one wherever the two encodings first differ, so comparing the bytes of two texts gives
the same order. A list of texts that is sorted is sorted by their bytes.
-/

namespace KernelCatalog.Text

/-- The bytes of a text are those of its characters, one after the other. -/
theorem toBytes_eq_flatMap (text : String) :
    toBytes text = text.toList.flatMap String.utf8EncodeChar := by
  rw [toBytes, String.toUTF8, ← String.utf8Encode_toList]
  simp [List.utf8Encode]

theorem ofNat_lt_ofNat_iff {m n : Nat} (hm : m < 256) (hn : n < 256) :
    UInt8.ofNat m < UInt8.ofNat n ↔ m < n := by
  rw [UInt8.lt_iff_toNat_lt, UInt8.toNat_ofNat', UInt8.toNat_ofNat', Nat.mod_eq_of_lt hm,
    Nat.mod_eq_of_lt hn]

theorem ofNat_eq_ofNat_iff {m n : Nat} (hm : m < 256) (hn : n < 256) :
    UInt8.ofNat m = UInt8.ofNat n ↔ m = n := by
  rw [← UInt8.toNat_inj, UInt8.toNat_ofNat', UInt8.toNat_ofNat', Nat.mod_eq_of_lt hm,
    Nat.mod_eq_of_lt hn]

theorem utf8EncodeChar_append_lt {c d : Char} (h : c < d) (more rest : Bytes) :
    String.utf8EncodeChar c ++ more < String.utf8EncodeChar d ++ rest := by
  have hval : c.val.toNat < d.val.toNat := h
  have hlast : d.val.toNat < 0x110000 := by
    rcases d.valid with hd | hd <;> omega
  unfold String.utf8EncodeChar
  generalize c.val.toNat = m at hval ⊢
  generalize d.val.toNat = n at hval hlast ⊢
  dsimp only
  by_cases hm : m ≤ 0xffff
  · split_ifs <;>
      simp (disch := omega) only [List.cons_append, List.nil_append, List.cons_lt_cons_iff,
        ofNat_lt_ofNat_iff, ofNat_eq_ofNat_iff] <;>
      omega
  · -- both take four bytes, and are compared by their digits in base 64
    have hdigits : m / 262144 < n / 262144 ∨ m / 262144 = n / 262144 ∧
        (m / 4096 % 64 < n / 4096 % 64 ∨ m / 4096 % 64 = n / 4096 % 64 ∧
          (m / 64 % 64 < n / 64 % 64 ∨ m / 64 % 64 = n / 64 % 64 ∧ m % 64 < n % 64)) := by
      omega
    have hfirst : m / 262144 % 8 = m / 262144 ∧ n / 262144 % 8 = n / 262144 := by omega
    rw [if_neg (by omega), if_neg (by omega), if_neg hm, if_neg (by omega), if_neg (by omega),
      if_neg (by omega)]
    simp (disch := omega) only [List.cons_append, List.nil_append, List.cons_lt_cons_iff,
      ofNat_lt_ofNat_iff, ofNat_eq_ofNat_iff, hfirst, Nat.add_lt_add_iff_right,
      Nat.add_right_cancel_iff]
    tauto

theorem flatMap_utf8EncodeChar_lt {cs ds : List Char} (h : cs < ds) :
    cs.flatMap String.utf8EncodeChar < ds.flatMap String.utf8EncodeChar := by
  induction cs generalizing ds with
  | nil =>
    cases ds with
    | nil => exact absurd h (List.lt_irrefl _)
    | cons d ds =>
      rw [List.flatMap_nil, List.flatMap_cons]
      cases hd : String.utf8EncodeChar d with
      | nil => exact absurd hd String.utf8EncodeChar_ne_nil
      | cons b bs => exact List.nil_lt_cons b _
  | cons c cs ih =>
    cases ds with
    | nil => exact absurd h (List.not_lt_nil _)
    | cons d ds =>
      rw [List.flatMap_cons, List.flatMap_cons]
      rcases List.cons_lt_cons_iff.mp h with hcd | ⟨rfl, hrest⟩
      · exact utf8EncodeChar_append_lt hcd _ _
      · exact List.append_left_lt (ih hrest)

/-- Texts are ordered as their bytes are. -/
theorem toBytes_lt_toBytes_iff {a b : String} : toBytes a < toBytes b ↔ a < b := by
  have hforward : ∀ {a b : String}, a < b → toBytes a < toBytes b := by
    intro a b h
    rw [toBytes_eq_flatMap, toBytes_eq_flatMap]
    exact flatMap_utf8EncodeChar_lt (String.lt_iff_toList_lt.mp h)
  refine ⟨fun h => ?_, hforward⟩
  rcases lt_trichotomy a b with hab | rfl | hba
  · exact hab
  · exact absurd h (List.lt_irrefl _)
  · exact absurd (List.lt_trans h (hforward hba)) (List.lt_irrefl _)

theorem pairwise_toBytes_mergeSort {texts : List String} (h : texts.Nodup) :
    texts.mergeSort.Pairwise fun a b => toBytes a < toBytes b := by
  have hnodup : texts.mergeSort.Nodup := (List.mergeSort_perm _ _).nodup_iff.mpr h
  refine (List.pairwise_mergeSort' (· ≤ ·) texts).imp₂ ?_ hnodup
  intro a b hle hne
  exact toBytes_lt_toBytes_iff.mpr (lt_of_le_of_ne hle hne)

end KernelCatalog.Text
