import KernelCatalog.Kernel.Param
import Mathlib.Algebra.Group.Nat.Defs
import Mathlib.Data.List.Infix
import Mathlib.Order.Bounds.Defs

/-!
# Argument blocks

The size of an argument block is computed in words, one parameter after another. `words` lists every
word that is computed on the way, and `values` the numbers that the same steps give without a bound.
The numbers only grow, and a multiple of eight is a fit start for every parameter, so the last one is
at most eight for each parameter.

A layout puts every parameter at an offset. `LaysOut` says which layouts the device reads: the
parameters stand in order, each at a multiple of its alignment, and no byte belongs to two of them.
The size of the block is where the layout that takes the first fitting offset each time ends.

* `toNat_words`: in a block of less than 2 ^ 32 bytes no word wraps.
* `foldl_stop_le_blockEnd`: no layout ends earlier.
* `laysOut_firstFit`: one ends there.
-/

namespace KernelCatalog.Param

/-! ## Sizes -/

/-- A parameter has one, two, four or eight bytes. -/
theorem toNat_size_cases (p : Param) :
    p.size.toNat = 1 ∨ p.size.toNat = 2 ∨ p.size.toNat = 4 ∨ p.size.toNat = 8 := by
  cases p with
  | scalar type => cases type <;> decide
  | pointer space elem mutable => exact Or.inr (Or.inr (Or.inr rfl))

theorem size_pos (p : Param) : 0 < p.size.toNat := by
  have := p.toNat_size_cases
  omega

theorem size_le (p : Param) : p.size.toNat ≤ 8 := by
  have := p.toNat_size_cases
  omega

theorem align_dvd_eight (p : Param) : p.align.toNat ∣ 8 := by
  show p.size.toNat ∣ 8
  rcases p.toNat_size_cases with h | h | h | h <;> rw [h] <;> decide

/-! ## Numbers -/

/-- How many alignments reach from the start of the block to an offset or just beyond. -/
def units (offset : Nat) (p : Param) : Nat :=
  if offset % p.align.toNat = 0 then offset / p.align.toNat else offset / p.align.toNat + 1

/-- The first offset from the given one on at which a parameter can start. -/
def start (offset : Nat) (p : Param) : Nat := units offset p * p.align.toNat

/-- Where a parameter ends that starts as early as it can. -/
def stop (offset : Nat) (p : Param) : Nat := start offset p + p.size.toNat

/-- The numbers that come up when a parameter is placed, the last of which is its end. -/
def placeValues (offset : Nat) (p : Param) : List Nat :=
  [offset / p.align.toNat, offset % p.align.toNat, units offset p, start offset p, stop offset p]

/-- The numbers that come up when parameters are placed one after another. -/
def values : Nat → List Param → List Nat
  | _, [] => []
  | offset, p :: rest => placeValues offset p ++ values (stop offset p) rest

theorem align_dvd_start (offset : Nat) (p : Param) : p.align.toNat ∣ start offset p :=
  Nat.dvd_mul_left ..

theorem le_start (offset : Nat) (p : Param) : offset ≤ start offset p := by
  unfold start units align
  rcases p.toNat_size_cases with h | h | h | h <;> rw [h] <;> split <;> omega

/-- No aligned offset is passed over. -/
theorem start_le {offset later : Nat} {p : Param} (hle : offset ≤ later)
    (haligned : p.align.toNat ∣ later) : start offset p ≤ later := by
  unfold start units align at *
  rcases p.toNat_size_cases with h | h | h | h <;> rw [h] at haligned ⊢ <;> split <;> omega

theorem le_stop (offset : Nat) (p : Param) : offset ≤ stop offset p :=
  Nat.le_trans (le_start offset p) (Nat.le_add_right _ _)

theorem le_foldl_stop (offset : Nat) (params : List Param) : offset ≤ params.foldl stop offset := by
  induction params generalizing offset with
  | nil => exact Nat.le_refl offset
  | cons p rest ih => exact Nat.le_trans (le_stop offset p) (ih (stop offset p))

theorem stop_le {offset count : Nat} (p : Param) (h : offset ≤ 8 * count) :
    stop offset p ≤ 8 * (count + 1) := by
  have hstart : start offset p ≤ 8 * count :=
    start_le h (Nat.dvd_trans p.align_dvd_eight (Nat.dvd_mul_right 8 count))
  have hsize := p.size_le
  unfold stop
  omega

theorem foldl_stop_le {offset count : Nat} (params : List Param) (h : offset ≤ 8 * count) :
    params.foldl stop offset ≤ 8 * (count + params.length) := by
  induction params generalizing offset count with
  | nil => exact h
  | cons p rest ih =>
    have hrest := ih (stop_le p h)
    rw [List.foldl_cons, List.length_cons]
    omega

/-- No number that comes up when a parameter is placed is greater than its end. -/
theorem le_stop_of_mem_placeValues {offset value : Nat} {p : Param}
    (h : value ∈ placeValues offset p) : value ≤ stop offset p := by
  have hpos : 0 < p.align.toNat := p.size_pos
  have hoffset := le_stop offset p
  have hstart : start offset p ≤ stop offset p := Nat.le_add_right _ _
  have hunits : units offset p ≤ start offset p := Nat.le_mul_of_pos_right _ hpos
  have hquotient : offset / p.align.toNat ≤ offset := Nat.div_le_self ..
  have hremainder : offset % p.align.toNat ≤ offset := Nat.mod_le ..
  simp only [placeValues, List.mem_cons, List.not_mem_nil, or_false] at h
  omega

/-- No number that comes up is greater than the end of the block. -/
theorem le_foldl_stop_of_mem_values {offset value : Nat} {params : List Param}
    (h : value ∈ values offset params) : value ≤ params.foldl stop offset := by
  induction params generalizing offset with
  | nil => exact absurd h List.not_mem_nil
  | cons p rest ih =>
    rw [values, List.mem_append] at h
    rw [List.foldl_cons]
    rcases h with hfirst | hrest
    · exact Nat.le_trans (le_stop_of_mem_placeValues hfirst) (le_foldl_stop _ rest)
    · exact ih hrest

/-! ## Words -/

/-- The alignments that reach to an offset or just beyond, in words. -/
def unitWord (offset : UInt32) (p : Param) : UInt32 :=
  if offset % p.align = 0 then offset / p.align else offset / p.align + 1

/-- The words that are computed when a parameter is placed, the last of which is its end. -/
def placeWords (offset : UInt32) (p : Param) : List UInt32 :=
  [offset / p.align, offset % p.align, unitWord offset p, unitWord offset p * p.align,
    unitWord offset p * p.align + p.size]

/-- The words that are computed when parameters are placed one after another. -/
def words : UInt32 → List Param → List UInt32
  | _, [] => []
  | offset, p :: rest => placeWords offset p ++ words (place offset p) rest

/-- The size of a block is the last word that is computed. -/
theorem foldl_place_eq_getLastD (offset : UInt32) (params : List Param) :
    params.foldl place offset = (words offset params).getLastD offset := by
  induction params generalizing offset with
  | nil => rfl
  | cons p rest ih =>
    rw [List.foldl_cons, ih, words, List.getLastD_eq_getLast?, List.getLastD_eq_getLast?,
      List.getLast?_append]
    cases (words (place offset p) rest).getLast? with
    | none => rfl
    | some last => rfl

section Place

variable {offset : UInt32} {p : Param}

/-- The count of alignments does not wrap, if the parameter ends in a word. -/
theorem toNat_unitWord (h : stop offset.toNat p < 2 ^ 32) :
    (unitWord offset p).toNat = units offset.toNat p := by
  have hlt : units offset.toNat p < 2 ^ 32 :=
    Nat.lt_of_le_of_lt (le_stop_of_mem_placeValues (by simp [placeValues])) h
  have hzero : offset % p.align = 0 ↔ offset.toNat % p.align.toNat = 0 := by
    rw [← UInt32.toNat_inj, UInt32.toNat_mod, UInt32.toNat_zero]
  unfold unitWord
  unfold units at hlt ⊢
  by_cases hexact : offset % p.align = 0
  · rw [if_pos hexact, if_pos (hzero.mp hexact), UInt32.toNat_div]
  · rw [if_neg (hzero.not.mp hexact)] at hlt ⊢
    rw [if_neg hexact, UInt32.toNat_add, UInt32.toNat_div, UInt32.toNat_one]
    exact Nat.mod_eq_of_lt hlt

/-- The start of a parameter does not wrap, if the parameter ends in a word. -/
theorem toNat_startWord (h : stop offset.toNat p < 2 ^ 32) :
    (unitWord offset p * p.align).toNat = start offset.toNat p := by
  have hlt : start offset.toNat p < 2 ^ 32 :=
    Nat.lt_of_le_of_lt (le_stop_of_mem_placeValues (by simp [placeValues])) h
  rw [UInt32.toNat_mul, toNat_unitWord h]
  exact Nat.mod_eq_of_lt hlt

/-- The end of a parameter does not wrap, if it is a word. -/
theorem toNat_place (h : stop offset.toNat p < 2 ^ 32) :
    (place offset p).toNat = stop offset.toNat p := by
  show (unitWord offset p * p.align + p.size).toNat = stop offset.toNat p
  rw [UInt32.toNat_add, toNat_startWord h]
  exact Nat.mod_eq_of_lt h

/-- The words of one parameter are its numbers, if its end is a word. -/
theorem toNat_placeWords (h : stop offset.toNat p < 2 ^ 32) :
    (placeWords offset p).map UInt32.toNat = placeValues offset.toNat p := by
  have hplace : (unitWord offset p * p.align + p.size).toNat = stop offset.toNat p := toNat_place h
  simp only [placeWords, placeValues, List.map_cons, List.map_nil, UInt32.toNat_div,
    UInt32.toNat_mod, toNat_unitWord h, toNat_startWord h, hplace]

end Place

section Block

variable {offset : UInt32} {params : List Param}

/-- **No word wraps**: the words are the numbers, if the end of the block is a word. -/
theorem toNat_words (h : params.foldl stop offset.toNat < 2 ^ 32) :
    (words offset params).map UInt32.toNat = values offset.toNat params := by
  induction params generalizing offset with
  | nil => rfl
  | cons p rest ih =>
    have hstop : stop offset.toNat p < 2 ^ 32 := Nat.lt_of_le_of_lt (le_foldl_stop _ rest) h
    rw [List.foldl_cons, ← toNat_place hstop] at h
    rw [words, values, List.map_append, toNat_placeWords hstop, ih h, toNat_place hstop]

/-- The size of a block that is a word is the end of its last parameter. -/
theorem toNat_foldl_place (h : params.foldl stop offset.toNat < 2 ^ 32) :
    (params.foldl place offset).toNat = params.foldl stop offset.toNat := by
  induction params generalizing offset with
  | nil => rfl
  | cons p rest ih =>
    have hstop : stop offset.toNat p < 2 ^ 32 := Nat.lt_of_le_of_lt (le_foldl_stop _ rest) h
    rw [List.foldl_cons, ← toNat_place hstop] at h
    rw [List.foldl_cons, List.foldl_cons, ih h, toNat_place hstop]

end Block

/-! ## Layouts -/

/-- A parameter at an offset in its argument block. -/
structure Placed where
  param : Param
  offset : Nat

namespace Placed

/-- The offset behind the last byte of the parameter. -/
def stop (placed : Placed) : Nat := placed.offset + placed.param.size.toNat

/-- The byte at an offset of the block belongs to the parameter. -/
def Covers (placed : Placed) (byte : Nat) : Prop := placed.offset ≤ byte ∧ byte < placed.stop

/-- Of two parameters in order, the first ends before the second starts if they share no byte. -/
theorem stop_le_iff {first second : Placed} :
    first.stop ≤ second.offset ↔
      first.offset ≤ second.offset ∧ ∀ byte, first.Covers byte → ¬ second.Covers byte := by
  have hfirst : first.offset < first.stop := Nat.lt_add_of_pos_right first.param.size_pos
  have hsecond : second.offset < second.stop := Nat.lt_add_of_pos_right second.param.size_pos
  constructor
  · intro hle
    refine ⟨by omega, ?_⟩
    rintro byte ⟨-, hlt⟩ ⟨hge, -⟩
    omega
  · rintro ⟨hordered, hapart⟩
    by_contra hlt
    -- the first byte of the second parameter would belong to both
    exact hapart second.offset ⟨hordered, by omega⟩ ⟨Nat.le_refl _, hsecond⟩

end Placed

/-- A layout of parameters: they stand in order, each at a multiple of its alignment, and no byte
belongs to two of them. -/
structure LaysOut (params : List Param) (layout : List Placed) : Prop where
  params_eq : layout.map Placed.param = params
  aligned : ∀ placed ∈ layout, placed.param.align.toNat ∣ placed.offset
  ordered : layout.Pairwise fun first second => first.offset ≤ second.offset
  apart : layout.Pairwise fun first second => ∀ byte, first.Covers byte → ¬ second.Covers byte

/-- The first parameter of a layout, if there is one, stands at the start of the block. -/
def StartsAtZero (layout : List Placed) : Prop := ∀ placed ∈ layout.head?, placed.offset = 0

/-- Where the parameters of a layout end; a layout without parameters ends at zero. -/
def blockEnd (layout : List Placed) : Nat := (layout.map Placed.stop).foldr max 0

/-- The layout that puts each parameter at the first offset that fits. -/
def firstFit : Nat → List Param → List Placed
  | _, [] => []
  | offset, p :: rest => ⟨p, start offset p⟩ :: firstFit (stop offset p) rest

/-- **No layout ends earlier** than parameters that are placed as early as they can be. -/
theorem foldl_stop_le_blockEnd {offset : Nat} {layout : List Placed}
    (haligned : ∀ placed ∈ layout, placed.param.align.toNat ∣ placed.offset)
    (hpairwise : layout.Pairwise fun first second => first.stop ≤ second.offset)
    (hbehind : ∀ placed ∈ layout, offset ≤ placed.offset) :
    (layout.map Placed.param).foldl stop offset ≤ max offset (blockEnd layout) := by
  -- the parameters that are placed so far end no later than those of the layout
  induction layout generalizing offset with
  | nil => exact Nat.le_max_left ..
  | cons first rest ih =>
    obtain ⟨hfirst, hrest⟩ := List.pairwise_cons.mp hpairwise
    rw [List.forall_mem_cons] at haligned hbehind
    have hstop : Param.stop offset first.param ≤ first.stop :=
      Nat.add_le_add_right (start_le hbehind.1 haligned.1) _
    have hend := ih haligned.2 hrest fun placed hplaced =>
      Nat.le_trans hstop (hfirst placed hplaced)
    have hcons : blockEnd (first :: rest) = max first.stop (blockEnd rest) := rfl
    rw [List.map_cons, List.foldl_cons, hcons]
    omega

/-- Parameters that are placed as early as they can be are behind the offset that they start from. -/
theorem le_offset_of_mem_firstFit {offset : Nat} {params : List Param} {placed : Placed}
    (h : placed ∈ firstFit offset params) : offset ≤ placed.offset := by
  induction params generalizing offset with
  | nil => exact absurd h List.not_mem_nil
  | cons p rest ih =>
    rcases List.mem_cons.mp h with rfl | hrest
    · exact le_start offset p
    · exact Nat.le_trans (le_stop offset p) (ih hrest)

/-- Parameters that are placed as early as they can be end one before the other starts. -/
theorem pairwise_firstFit (offset : Nat) (params : List Param) :
    (firstFit offset params).Pairwise fun first second => first.stop ≤ second.offset := by
  induction params generalizing offset with
  | nil => exact .nil
  | cons p rest ih =>
    exact List.pairwise_cons.mpr ⟨fun _ hplaced => le_offset_of_mem_firstFit hplaced, ih _⟩

/-- **Placing each parameter as early as it can be** gives a layout. -/
theorem laysOut_firstFit (offset : Nat) (params : List Param) :
    LaysOut params (firstFit offset params) where
  params_eq := by
    induction params generalizing offset with
    | nil => rfl
    | cons p rest ih => rw [firstFit, List.map_cons, ih]
  aligned := by
    induction params generalizing offset with
    | nil => exact fun _ hplaced => absurd hplaced List.not_mem_nil
    | cons p rest ih => exact List.forall_mem_cons.mpr ⟨align_dvd_start offset p, ih _⟩
  ordered := (pairwise_firstFit offset params).imp fun hle => (Placed.stop_le_iff.mp hle).1
  apart := (pairwise_firstFit offset params).imp fun hle => (Placed.stop_le_iff.mp hle).2

theorem startsAtZero_firstFit (params : List Param) : StartsAtZero (firstFit 0 params) := by
  intro placed hplaced
  cases params with
  | nil => exact absurd hplaced (by simp [firstFit])
  | cons p rest =>
    obtain rfl := Option.some.inj hplaced
    exact Nat.le_zero.mp (start_le (Nat.le_refl 0) (Nat.dvd_zero _))

theorem blockEnd_firstFit (offset : Nat) (params : List Param) :
    max offset (blockEnd (firstFit offset params)) = params.foldl stop offset := by
  induction params generalizing offset with
  | nil => exact Nat.max_eq_left (Nat.zero_le offset)
  | cons p rest ih =>
    have hcons : blockEnd (firstFit offset (p :: rest)) =
        max (stop offset p) (blockEnd (firstFit (stop offset p) rest)) := rfl
    have hle := le_foldl_stop (stop offset p) rest
    have hoffset := le_stop offset p
    rw [hcons, ih, List.foldl_cons]
    omega

/-- **The size of an argument block is that of its smallest layout.** With fewer than 2 ^ 29
parameters, every word that is computed is the number that it stands for and is at most eight for
each parameter. The size is the least end of the layouts that start at zero, and of those that start
anywhere, and parameters that are added behind the others make the block no smaller. -/
theorem blockSize_isLeast_blockEnd (params : List Param) (h : params.length < 2 ^ 29) :
    blockSize params = (words 0 params).getLastD 0 ∧
    (words 0 params).map UInt32.toNat = values 0 params ∧
    (∀ value ∈ values 0 params, value ≤ 8 * params.length) ∧
    IsLeast {size | ∃ layout, LaysOut params layout ∧ StartsAtZero layout ∧ blockEnd layout = size}
      (blockSize params).toNat ∧
    (∀ layout, LaysOut params layout → (blockSize params).toNat ≤ blockEnd layout) ∧
    ∀ front, front <+: params → blockSize front ≤ blockSize params := by
  have hbound : ∀ front : List Param, front.foldl stop 0 ≤ 8 * front.length := by
    intro front
    have hle : front.foldl stop 0 ≤ 8 * (0 + front.length) := foldl_stop_le front (Nat.le_refl 0)
    rwa [Nat.zero_add] at hle
  have hword : ∀ front, front <+: params → (blockSize front).toNat = front.foldl stop 0 := by
    intro front hfront
    have hle := hbound front
    have hlength := hfront.length_le
    exact toNat_foldl_place (by rw [UInt32.toNat_zero]; omega)
  have hsize := hword params List.prefix_rfl
  have hleast : ∀ layout, LaysOut params layout → (blockSize params).toNat ≤ blockEnd layout := by
    rintro layout ⟨rfl, haligned, hordered, hapart⟩
    have hpairwise := (hordered.and hapart).imp fun hboth => Placed.stop_le_iff.mpr hboth
    have hend := foldl_stop_le_blockEnd haligned hpairwise fun placed _ => Nat.zero_le placed.offset
    rwa [Nat.zero_max, ← hsize] at hend
  refine ⟨foldl_place_eq_getLastD 0 params, ?_, ?_, ⟨?_, ?_⟩, hleast, ?_⟩
  · have hle := hbound params
    exact toNat_words (by rw [UInt32.toNat_zero]; omega)
  · intro value hvalue
    exact Nat.le_trans (le_foldl_stop_of_mem_values hvalue) (hbound params)
  · refine ⟨firstFit 0 params, laysOut_firstFit 0 params, startsAtZero_firstFit params, ?_⟩
    rw [hsize, ← blockEnd_firstFit, Nat.zero_max]
  · rintro size ⟨layout, hlayout, -, rfl⟩
    exact hleast layout hlayout
  · intro front hfront
    rw [UInt32.le_iff_toNat_le, hword front hfront, hsize]
    obtain ⟨rest, rfl⟩ := hfront
    rw [List.foldl_append]
    exact le_foldl_stop _ rest

/-- Parameters of which the second and the last do not start where the ones before them end. -/
def paddedParams : List Param :=
  [.scalar .i8, .pointer .global .f32 true, .scalar .u16, .scalar .i32]

/-- The padding of the sample is counted, and there is no smaller layout. -/
theorem blockSize_isLeast_blockEnd_padded :
    paddedParams.length < 2 ^ 29 ∧ (words 0 paddedParams).getLastD 0 = 24 ∧
    (∀ value ∈ values 0 paddedParams, value ≤ 32) ∧
    (∀ layout, LaysOut paddedParams layout → 24 ≤ blockEnd layout) ∧
    blockSize (paddedParams.take 2) ≤ 24 := by
  have hlength : paddedParams.length < 2 ^ 29 := by decide
  have hsize : blockSize paddedParams = 24 := by decide
  obtain ⟨hlast, -, hbound, -, hleast, hfront⟩ := blockSize_isLeast_blockEnd paddedParams hlength
  rw [hsize] at hlast hleast hfront
  exact ⟨hlength, hlast.symm, hbound, hleast, hfront _ (List.take_prefix 2 paddedParams)⟩

end KernelCatalog.Param
