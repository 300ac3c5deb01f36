import KernelCatalog.Architecture
import KernelCatalog.HostSource.Identifier
import KernelCatalog.Proofs.Text.Decimal

/-!
# Names of architectures

Four architectures are called by a word and every other one by its machine number, so that different
architectures have different names, of word characters and dashes.
-/

namespace KernelCatalog.Architecture

/-- The name of an architecture is made of word characters and dashes. -/
theorem all_name (architecture : Architecture) :
    (architecture.name.toList.all fun c => Identifier.isWord c || c == '-') = true := by
  cases architecture with
  | other machine =>
    have hnumber : ((toString machine.toNat).toList.all
        fun c => Identifier.isWord c || c == '-') = true :=
      List.all_eq_true.mpr fun c hc => by
        simp [Identifier.isWord, Char.isAlphanum, Text.isDigit_of_mem_toString hc]
    rw [name, String.toList_append, List.all_append, hnumber]
    rfl
  | _ => rfl

theorem not_mem_name (architecture : Architecture) {c : Char}
    (h : (Identifier.isWord c || c == '-') = false) : c ∉ architecture.name.toList := by
  intro hmem
  have hall := List.all_eq_true.mp architecture.all_name c hmem
  rw [h] at hall
  exact absurd hall (by decide)

theorem name_injective {first second : Architecture} (h : first.name = second.name) :
    first = second := by
  -- only the name of a machine by its number starts like this
  have hother : ∀ machine : UInt16, Text.after? "machine-".toList (other machine).name.toList =
      some (toString machine.toNat).toList := by
    intro machine
    rw [Text.after?_eq_some, name, String.toList_append]
  have hafter := congrArg (fun text => Text.after? "machine-".toList text.toList) h
  cases first with
  | other machine =>
    cases second with
    | other number =>
      simp only [hother] at hafter
      have hnumber := Text.toString_injective (String.toList_injective (Option.some.inj hafter))
      rw [UInt16.toNat_inj.mp hnumber]
    | _ => exact absurd ((hother machine).symm.trans hafter) (by simp [name, Text.after?])
  | _ =>
    cases second with
    | other number => exact absurd (hafter.trans (hother number)) (by simp [name, Text.after?])
    | _ => first | rfl | exact absurd h (by decide)

end KernelCatalog.Architecture
