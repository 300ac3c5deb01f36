import KernelCatalog.Path
import KernelCatalog.Proofs.Text.Split
import Mathlib.Data.List.Infix

/-!
# The names on a path

What a path asks for are its names: separators and `.` only stand between them. Joining paths puts
their names behind each other. The name `..` takes back the name before it, so paths with different
names can still stand for one place; a path without it stands for its names.

* `Path.names_join`: the names of joined paths.
* `Path.same_iff_names`: which absolute paths are the same.
* `Path.resolved_eq_names`: what a path stands for that does not go back.
* `Path.isAround_of_parent?`: the names of the path around another one.
* `Path.isAround_join`: a path is around one with a name behind it.
* `Path.names_of_relativeTo?`: what is left of a path behind one at its front.
* `Path.components_join`, `Path.leads_join`: a path with a name behind it, wherever it starts.
-/

namespace KernelCatalog

namespace Path

/-- The names on a path, in order. -/
def names (path : Path) : List (List Char) := bodyNames path.text.toList

/-- The name of the directory around. -/
def dotDot : List Char := ['.', '.']

/-- Whether a path leads out of a directory again. -/
def goesBack (path : Path) : Bool := path.names.contains dotDot

/-- The names that are left behind a further name, which may take the last one back. -/
def takeName (taken : List (List Char)) (name : List Char) : List (List Char) :=
  if name = dotDot then taken.dropLast else taken ++ [name]

/-- The names that an absolute path stands for once every `..` has taken back the name before it. -/
def resolved (path : Path) : List (List Char) := path.names.foldl takeName []

/-! ## Names -/

theorem bodyNames_append_cons (front rest : List Char) :
    bodyNames (front ++ '/' :: rest) = bodyNames front ++ bodyNames rest := by
  rw [bodyNames, Text.pieces_append_cons, List.filter_append]
  rfl

theorem bodyNames_nil : bodyNames [] = [] := rfl

theorem bodyNames_cons (rest : List Char) : bodyNames ('/' :: rest) = bodyNames rest :=
  bodyNames_append_cons [] rest

/-- An absolute path replaces what is in front of it. -/
theorem join_of_isAbsolute {path : Path} {other : String} (h : (Path.mk other).isAbsolute = true) :
    path.join other = ⟨other⟩ := by
  rw [join, if_pos h]

/-- **The names of joined paths** are those of the first and then those of the second. -/
theorem names_join (path : Path) {other : String} (h : (Path.mk other).isAbsolute = false) :
    (path.join other).names = path.names ++ (Path.mk other).names := by
  rw [join, if_neg (by simp [h])]
  split
  · next hlast =>
    rw [List.getLast?_eq_none_iff] at hlast
    simp [names, hlast, bodyNames, Text.pieces, isName]
  · next hlast =>
    obtain ⟨front, hfront⟩ := List.getLast?_eq_some_iff.mp hlast
    rw [names, names, String.toList_append, hfront, List.append_assoc, List.singleton_append,
      bodyNames_append_cons, bodyNames_append_cons, bodyNames_nil, List.append_nil, names]
  · rw [names, String.toList_append, String.toList_append, List.append_assoc]
    exact bodyNames_append_cons _ _

theorem isAbsolute_join {path : Path} (h : path.isAbsolute = true) (other : String) :
    (path.join other).isAbsolute = true := by
  have hhead : path.text.toList.head? = some '/' := by simpa [isAbsolute] using h
  have happend : ∀ rest : String, (Path.mk (path.text ++ rest)).isAbsolute = true := by
    intro rest
    rw [isAbsolute, String.toList_append, List.head?_append, hhead, Option.some_or]
    rfl
  unfold join
  split
  · assumption
  · split
    · exact happend other
    · exact happend other
    · rw [String.append_assoc]
      exact happend ("/" ++ other)

/-- The components of an absolute path are the root directory and its names. -/
theorem components_of_isAbsolute {path : Path} (h : path.isAbsolute = true) :
    path.components = .root :: path.names.map .name := by
  have hhead : path.text.toList.head? = some '/' := by simpa [isAbsolute] using h
  obtain ⟨rest, hrest⟩ := List.head?_eq_some_iff.mp hhead
  rw [components, names, hrest, bodyNames_cons]
  rfl

theorem Component.name_injective : Function.Injective Component.name :=
  fun _ _ h => Component.name.inj h

theorem same_iff {a b : Path} : a.same b = true ↔ a.components = b.components := beq_iff_eq

theorem same_comm (a b : Path) : a.same b = b.same a := by
  rw [Bool.eq_iff_iff, same_iff, same_iff, eq_comm]

/-- **Absolute paths are the same** when their names are. -/
theorem same_iff_names {a b : Path} (ha : a.isAbsolute = true) (hb : b.isAbsolute = true) :
    a.same b = true ↔ a.names = b.names := by
  rw [same, beq_iff_eq, components_of_isAbsolute ha, components_of_isAbsolute hb,
    List.cons_inj_right, List.map_inj_right fun _ _ h => Component.name_injective h]

/-! ## Going back -/

theorem goesBack_eq_false_iff {path : Path} : path.goesBack = false ↔ dotDot ∉ path.names := by
  simp [goesBack]

theorem goesBack_join (path : Path) {other : String} (h : (Path.mk other).isAbsolute = false) :
    (path.join other).goesBack = (path.goesBack || (Path.mk other).goesBack) := by
  rw [goesBack, names_join path h, List.contains_append, goesBack, goesBack]

/-- Names that do not go back are all taken. -/
theorem foldl_takeName {names : List (List Char)} (h : dotDot ∉ names)
    (taken : List (List Char)) : names.foldl takeName taken = taken ++ names := by
  induction names generalizing taken with
  | nil => simp
  | cons name rest ih =>
    obtain ⟨hname, hrest⟩ := not_or.mp (mt List.mem_cons.mpr h)
    rw [List.foldl_cons, takeName, if_neg (Ne.symm hname), ih hrest, List.append_assoc,
      List.singleton_append]

/-- **A path that does not go back** stands for its names. -/
theorem resolved_eq_names {path : Path} (h : path.goesBack = false) :
    path.resolved = path.names := by
  rw [resolved, foldl_takeName (goesBack_eq_false_iff.mp h), List.nil_append]

theorem goesBack_of_not_mem {text : String} (hsep : '/' ∉ text.toList)
    (hne : text.toList ≠ dotDot) : (Path.mk text).goesBack = false := by
  rw [goesBack_eq_false_iff, names, bodyNames, Text.pieces_of_not_mem hsep]
  exact fun hmem => hne (List.mem_singleton.mp (List.mem_filter.mp hmem).1).symm

theorem isAbsolute_of_not_mem {text : String} (hsep : '/' ∉ text.toList) :
    (Path.mk text).isAbsolute = false := by
  have hhead : text.toList.head? ≠ some '/' := fun h => hsep (List.mem_of_head? h)
  simpa [isAbsolute] using hhead

/-! ## The path around -/

theorem isName_reverse (piece : List Char) : isName piece.reverse = isName piece := by
  have hdot : piece.reverse = ['.'] ↔ piece = ['.'] := by
    rw [List.reverse_eq_iff]
    rfl
  rw [isName, isName, Bool.eq_iff_iff]
  simp [hdot]

theorem bodyNames_reverse (cs : List Char) :
    bodyNames cs.reverse = ((bodyNames cs).map List.reverse).reverse := by
  rw [bodyNames, Text.pieces_reverse, List.filter_reverse, List.filter_map, bodyNames]
  rw [show isName ∘ List.reverse = isName from funext isName_reverse]

/-- What is trimmed holds no name. -/
theorem bodyNames_trimFront (cs : List Char) : bodyNames (trimFront cs) = bodyNames cs := by
  fun_induction trimFront cs with
  | case1 => rfl
  | case2 rest ih => rw [ih, bodyNames_cons]
  | case3 => rfl
  | case4 rest ih =>
    have hdot : bodyNames ['.'] = [] := rfl
    have happend := bodyNames_append_cons ['.'] rest
    rw [hdot, List.nil_append] at happend
    rw [ih, ← happend, List.singleton_append]
  | case5 => rfl

theorem trimFront_suffix (cs : List Char) : trimFront cs <:+ cs := by
  fun_induction trimFront cs with
  | case1 => exact List.suffix_rfl
  | case2 rest ih => exact ih.trans (List.suffix_cons '/' rest)
  | case3 => exact List.nil_suffix
  | case4 rest ih => exact ih.trans ((List.suffix_cons '/' rest).trans (List.suffix_cons '.' _))
  | case5 => exact List.suffix_rfl

/-- The characters in front of the first separator. -/
def firstPiece (cs : List Char) : List Char := cs.takeWhile (· ≠ '/')

theorem firstPiece_cons {c : Char} (h : c ≠ '/') (rest : List Char) :
    firstPiece (c :: rest) = c :: firstPiece rest :=
  List.takeWhile_cons_of_pos (by simpa using h)

/-- What is left after trimming starts with a name. -/
theorem isName_firstPiece_trimFront {cs : List Char} (h : trimFront cs ≠ []) :
    isName (firstPiece (trimFront cs)) = true := by
  fun_induction trimFront cs with
  | case1 => exact absurd rfl h
  | case2 rest ih => exact ih h
  | case3 => exact absurd rfl h
  | case4 rest ih => exact ih h
  | case5 c rest hslash hdot hdots =>
    rw [firstPiece_cons hslash]
    -- a point alone would have been trimmed
    have hne : c :: firstPiece rest ≠ ['.'] := by
      intro heq
      obtain ⟨rfl, hpiece⟩ := List.cons.inj heq
      cases rest with
      | nil => exact hdot rfl rfl
      | cons next more =>
        by_cases hnext : next = '/'
        · exact hdots more rfl (by rw [hnext])
        · rw [firstPiece_cons hnext] at hpiece
          exact absurd hpiece (by simp)
    simpa [isName] using hne

/-- The first piece, if it is a name, is the first name. -/
theorem bodyNames_of_isName {cs : List Char} (h : isName (firstPiece cs) = true) :
    bodyNames cs = firstPiece cs :: bodyNames (cs.dropWhile (· ≠ '/')) := by
  have hnot : '/' ∉ firstPiece cs := by
    intro hmem
    have hall := List.all_takeWhile (p := fun c => decide (c ≠ '/')) (l := cs)
    exact absurd (List.all_eq_true.mp hall '/' hmem) (by simp)
  have hsplit : firstPiece cs ++ cs.dropWhile (· ≠ '/') = cs := List.takeWhile_append_dropWhile
  have hfirst : bodyNames (firstPiece cs) = [firstPiece cs] := by
    rw [bodyNames, Text.pieces_of_not_mem hnot, List.filter_cons_of_pos h, List.filter_nil]
  cases hrest : cs.dropWhile (· ≠ '/') with
  | nil =>
    rw [hrest, List.append_nil] at hsplit
    rw [hsplit] at hfirst ⊢
    exact hfirst
  | cons c rest =>
    have hc : c = '/' := by
      have hhead := List.head?_dropWhile_not (fun c => decide (c ≠ '/')) cs
      rw [hrest] at hhead
      simpa using hhead
    rw [hrest, hc] at hsplit
    have happend := bodyNames_append_cons (firstPiece cs) rest
    rw [hsplit, hfirst, List.singleton_append] at happend
    rw [happend, hc, bodyNames_cons]

theorem pieces_eq_firstPiece_cons (cs : List Char) :
    ∃ more, Text.pieces '/' cs = firstPiece cs :: more := by
  induction cs with
  | nil => exact ⟨[], rfl⟩
  | cons c rest ih =>
    obtain ⟨more, hmore⟩ := ih
    by_cases hc : c = '/'
    · exact ⟨Text.pieces '/' rest, by simp [Text.pieces, firstPiece, hc]⟩
    · exact ⟨more, by rw [Text.pieces, if_neg hc, hmore, firstPiece_cons hc]⟩

/-- The last piece of a text is the first piece when the text is read backwards. -/
theorem pieces_eq_append_lastPiece (cs : List Char) :
    ∃ front, Text.pieces '/' cs = front ++ [(firstPiece cs.reverse).reverse] := by
  obtain ⟨more, hmore⟩ := pieces_eq_firstPiece_cons cs.reverse
  have hpieces := Text.pieces_reverse '/' cs.reverse
  rw [List.reverse_reverse, hmore, List.map_cons, List.reverse_cons] at hpieces
  exact ⟨_, hpieces⟩

/-- A path whose text ends where its last name does. -/
def Trimmed (path : Path) : Prop :=
  path.names = [] ∨
    ∃ front name, Text.pieces '/' path.text.toList = front ++ [name] ∧ isName name = true

/-- The characters of a path are those of its first component and those behind it. -/
theorem headChars_append_body (cs : List Char) :
    headChars (headBody cs).1 ++ (headBody cs).2 = cs := by
  unfold headBody
  split <;> rfl

theorem bodyNames_headChars_append {cs front : List Char} (h : front <+: (headBody cs).2) :
    bodyNames (headChars (headBody cs).1 ++ front) = bodyNames front := by
  have hdot : bodyNames ['.'] = [] := rfl
  unfold headBody at h ⊢
  split at h
  · exact bodyNames_cons front
  · obtain rfl := List.prefix_nil.mp h
    exact hdot
  · rcases List.prefix_cons_iff.mp h with rfl | ⟨more, rfl, -⟩
    · exact hdot
    · have happend := bodyNames_append_cons ['.'] more
      rw [hdot, List.nil_append, ← bodyNames_cons] at happend
      exact happend
  · rfl

theorem isAbsolute_headChars_append {path : Path} {front : List Char}
    (h : front <+: (headBody path.text.toList).2) :
    (Path.mk (String.ofList (headChars (headBody path.text.toList).1 ++ front))).isAbsolute =
      path.isAbsolute := by
  rw [isAbsolute, isAbsolute, String.toList_ofList]
  generalize path.text.toList = cs at h
  unfold headBody at h ⊢
  split at h
  · rfl
  · rfl
  · rfl
  · next hslash _ _ =>
    have hnot : cs.head? ≠ some '/' := by
      intro hhead
      obtain ⟨rest, rfl⟩ := List.head?_eq_some_iff.mp hhead
      exact hslash rest rfl
    cases front with
    | nil => simpa [headChars] using hnot
    | cons c more =>
      obtain ⟨rest, rfl⟩ := h
      rfl

theorem firstPiece_append_cons (front rest : List Char) :
    firstPiece (front ++ '/' :: rest) = firstPiece front := by
  induction front with
  | nil => rfl
  | cons c more ih =>
    by_cases hc : c = '/'
    · simp [firstPiece, hc]
    · rw [List.cons_append, firstPiece_cons hc, firstPiece_cons hc, ih]

/-- The first component of a path does not belong to the last name. -/
theorem firstPiece_append_headChars {cs back : List Char}
    (h : back.reverse <+: (headBody cs).2) (hne : back ≠ []) :
    firstPiece (back ++ (headChars (headBody cs).1).reverse) = firstPiece back := by
  unfold headBody at h ⊢
  split at h
  · exact firstPiece_append_cons back []
  · exact absurd (List.prefix_nil.mp h) (by simpa using hne)
  · -- a separator stands between the two
    rcases List.prefix_cons_iff.mp h with hnil | ⟨more, hmore, -⟩
    · exact absurd hnil (by simpa using hne)
    · have hback : back = more.reverse ++ ['/'] := by
        rw [← List.reverse_reverse back, hmore, List.reverse_cons]
      rw [hback, List.append_assoc, List.singleton_append, firstPiece_append_cons,
        firstPiece_append_cons]
  · exact congrArg firstPiece (List.append_nil back)

/-- The path around another one. -/
structure IsAround (parent path : Path) : Prop where
  names_eq : parent.names = path.names.dropLast
  prefix_text : parent.text.toList <+: path.text.toList
  isAbsolute_eq : parent.isAbsolute = path.isAbsolute
  trimmed : parent.Trimmed

/-- What is left of a path behind its first component when it is trimmed at the end. -/
theorem isAround_of_body {path : Path} {body : List Char}
    (hbody : body.reverse <+: (headBody path.text.toList).2)
    (hnames : bodyNames body.reverse = path.names.dropLast)
    (htrimmed : body ≠ [] → isName (firstPiece body) = true) :
    IsAround ⟨String.ofList (headChars (headBody path.text.toList).1 ++ body.reverse)⟩ path where
  names_eq := by
    rw [names, String.toList_ofList, bodyNames_headChars_append hbody, hnames]
  prefix_text := by
    rw [String.toList_ofList]
    conv => rhs; rw [← headChars_append_body path.text.toList]
    exact (List.prefix_append_right_inj _).mpr hbody
  isAbsolute_eq := isAbsolute_headChars_append hbody
  trimmed := by
    by_cases hne : body = []
    · left
      rw [names, String.toList_ofList, bodyNames_headChars_append hbody, hne]
      rfl
    · obtain ⟨front, hfront⟩ :=
        pieces_eq_append_lastPiece (headChars (headBody path.text.toList).1 ++ body.reverse)
      refine Or.inr ⟨front, (firstPiece body).reverse, ?_, ?_⟩
      · rw [String.toList_ofList, hfront, List.reverse_append, List.reverse_reverse,
          firstPiece_append_headChars hbody hne]
      · rw [isName_reverse, htrimmed hne]

/-- The names of a path are those behind its first component. -/
theorem bodyNames_body (path : Path) : bodyNames (headBody path.text.toList).2 = path.names := by
  rw [names, ← bodyNames_headChars_append List.prefix_rfl, headChars_append_body]

/-- **The path around another one** has all its names but the last. -/
theorem isAround_of_parent? {path parent : Path} (h : path.parent? = some parent) :
    parent.IsAround path := by
  have hbody := path.bodyNames_body
  unfold parent? at h
  dsimp only at h
  rw [hbody] at h
  split at h
  · next hempty =>
    -- the current directory, written as such
    rw [List.isEmpty_iff] at hempty
    split at h
    · next hcurrent =>
      obtain rfl := Option.some.inj h
      have hfront : [] <+: (headBody path.text.toList).2 := List.nil_prefix
      have hrelative := isAbsolute_headChars_append hfront
      rw [hcurrent] at hrelative
      exact ⟨by rw [hempty]; rfl, List.nil_prefix, hrelative, Or.inl rfl⟩
    · exact absurd h (by simp)
  · next hnames =>
    obtain rfl := Option.some.inj h
    rw [trimBack, List.reverse_reverse]
    have hback : trimFront (headBody path.text.toList).2.reverse ≠ [] := by
      intro hnil
      have hback := bodyNames_trimFront (headBody path.text.toList).2.reverse
      rw [hnil, bodyNames_reverse, hbody] at hback
      have hempty := List.map_eq_nil_iff.mp (List.reverse_eq_nil_iff.mp hback.symm)
      exact hnames (List.isEmpty_iff.mpr hempty)
    have hlast := bodyNames_of_isName (isName_firstPiece_trimFront hback)
    rw [bodyNames_trimFront, bodyNames_reverse, hbody] at hlast
    refine isAround_of_body ?_ ?_ isName_firstPiece_trimFront
    · have hsuffix := (trimFront_suffix _).trans ((List.dropWhile_suffix (· ≠ '/')).trans
        (trimFront_suffix (headBody path.text.toList).2.reverse))
      have hfront := List.reverse_prefix.mpr hsuffix
      rwa [List.reverse_reverse] at hfront
    · rw [bodyNames_reverse, bodyNames_trimFront]
      have htail := congrArg List.tail hlast
      rw [List.tail_cons] at htail
      rw [← htail, List.tail_reverse, ← List.map_dropLast, List.map_reverse, List.reverse_reverse,
        List.map_map, List.map_dropLast,
        show (List.reverse ∘ List.reverse : List Char → List Char) = id from
          funext List.reverse_reverse, List.map_id]

theorem parent?_isSome {path : Path} (h : path.names ≠ []) : path.parent?.isSome := by
  unfold parent?
  dsimp only
  rw [path.bodyNames_body, if_neg (by simpa using h)]
  rfl

theorem exists_join_eq_append (path : Path) {name : String} (hsep : '/' ∉ name.toList) :
    ∃ front, (path.join name).text.toList = front ++ name.toList ∧ path.text.toList <+: front ∧
      (front = [] ∨ ∃ before, front = before ++ ['/']) := by
  rw [join, if_neg (by simp [isAbsolute_of_not_mem hsep])]
  split
  · next hlast =>
    rw [List.getLast?_eq_none_iff] at hlast
    exact ⟨[], by simp [hlast], by simp [hlast], Or.inl rfl⟩
  · next hlast =>
    obtain ⟨before, hbefore⟩ := List.getLast?_eq_some_iff.mp hlast
    exact ⟨path.text.toList, by simp, List.prefix_rfl, Or.inr ⟨before, hbefore⟩⟩
  · exact ⟨path.text.toList ++ ['/'], by simp, List.prefix_append _ _,
      Or.inr ⟨path.text.toList, rfl⟩⟩

theorem trimmed_join (path : Path) {name : String} (hsep : '/' ∉ name.toList)
    (hname : isName name.toList = true) : (path.join name).Trimmed := by
  obtain ⟨front, htext, -, hfront⟩ := path.exists_join_eq_append hsep
  refine Or.inr ?_
  rcases hfront with rfl | ⟨before, rfl⟩
  · exact ⟨[], name.toList, by rw [htext, List.nil_append, Text.pieces_of_not_mem hsep]; rfl, hname⟩
  · refine ⟨Text.pieces '/' before, name.toList, ?_, hname⟩
    rw [htext, List.append_assoc, List.singleton_append, Text.pieces_append_cons,
      Text.pieces_of_not_mem hsep]

/-- **A path is around one with a name behind it.** -/
theorem isAround_join {path : Path} {name : String} (hsep : '/' ∉ name.toList)
    (hname : isName name.toList = true) (htrimmed : path.Trimmed) (hne : path.text ≠ "") :
    path.IsAround (path.join name) := by
  obtain ⟨front, htext, hprefix, -⟩ := path.exists_join_eq_append hsep
  refine ⟨?_, ?_, ?_, htrimmed⟩
  · have hnames : (Path.mk name).names = [name.toList] := by
      simp [names, bodyNames, Text.pieces_of_not_mem hsep, hname]
    rw [names_join path (isAbsolute_of_not_mem hsep), hnames, List.dropLast_concat]
  · rw [htext]
    exact hprefix.trans (List.prefix_append _ _)
  · obtain ⟨rest, hrest⟩ := hprefix
    obtain ⟨first, more, hfirst⟩ := List.exists_cons_of_ne_nil
      (show path.text.toList ≠ [] by simpa using hne)
    rw [isAbsolute, isAbsolute, htext, ← hrest, hfirst]
    rfl

/-! ## Behind the first components -/

/-- Behind its first component, a text has the other names. -/
theorem bodyNames_dropName (cs : List Char) : bodyNames (dropName cs) = (bodyNames cs).tail := by
  rw [dropName]
  by_cases h : trimFront cs = []
  · rw [← bodyNames_trimFront cs, h]
    rfl
  · have hfirst := bodyNames_of_isName (isName_firstPiece_trimFront h)
    rw [bodyNames_trimFront] at hfirst
    rw [hfirst, List.tail_cons]

/-- Behind its first components, a text has the other names. -/
theorem bodyNames_dropNames (count : Nat) (cs : List Char) :
    bodyNames (dropNames count cs) = (bodyNames cs).drop count := by
  induction count generalizing cs with
  | zero => rfl
  | succ count ih => rw [dropNames, ih, bodyNames_dropName, List.drop_tail]

/-- What is trimmed at the end holds no name. -/
theorem bodyNames_trimBack (cs : List Char) : bodyNames (trimBack cs) = bodyNames cs := by
  rw [trimBack, bodyNames_reverse, bodyNames_trimFront, ← bodyNames_reverse, List.reverse_reverse]

theorem head?_trimFront (cs : List Char) : (trimFront cs).head? ≠ some '/' := by
  fun_induction trimFront cs with
  | case1 => simp
  | case2 rest ih => exact ih
  | case3 => simp
  | case4 rest ih => exact ih
  | case5 c rest hslash => simpa using hslash

theorem trimBack_prefix (cs : List Char) : trimBack cs <+: cs := by
  have hfront := List.reverse_prefix.mpr (trimFront_suffix cs.reverse)
  rwa [List.reverse_reverse] at hfront

/-- **Behind the root directory and further components**, an absolute path has the other names. -/
theorem names_dropComponents {path : Path} (h : path.isAbsolute = true) (count : Nat) :
    (path.dropComponents (count + 1)).names = path.names.drop count ∧
      (path.dropComponents (count + 1)).isAbsolute = false := by
  have hhead : path.text.toList.head? = some '/' := by simpa [isAbsolute] using h
  obtain ⟨rest, hrest⟩ := List.head?_eq_some_iff.mp hhead
  have hdrop : path.dropComponents (count + 1) =
      ⟨String.ofList (trimBack (trimFront (dropNames count rest)))⟩ := by
    rw [dropComponents, hrest]
    rfl
  rw [hdrop]
  constructor
  · rw [names, String.toList_ofList, bodyNames_trimBack, bodyNames_trimFront, bodyNames_dropNames,
      names, hrest, bodyNames_cons]
  · have hfront := trimBack_prefix (trimFront (dropNames count rest))
    rw [isAbsolute, String.toList_ofList, beq_eq_false_iff_ne]
    intro hslash
    obtain ⟨more, hmore⟩ := List.head?_eq_some_iff.mp hslash
    rw [hmore] at hfront
    obtain ⟨others, hothers⟩ := hfront
    exact head?_trimFront (dropNames count rest) (by rw [← hothers]; rfl)

/-- A path is at the front of another one, component by component, if its names are. -/
theorem components_prefix_iff {base path : Path} (hbase : base.isAbsolute = true)
    (hpath : path.isAbsolute = true) :
    base.components <+: path.components ↔ base.names <+: path.names := by
  rw [components_of_isAbsolute hbase, components_of_isAbsolute hpath, List.cons_prefix_cons,
    List.prefix_map_iff_of_injective Component.name_injective]
  simp

/-- Something is left of a path behind one at its front only. -/
theorem relativeTo?_eq_none_iff {path base : Path} :
    path.relativeTo? base = none ↔ ¬ base.components <+: path.components := by
  rw [← List.isPrefixOf_iff_prefix, relativeTo?]
  split
  · next hfront => simp [hfront]
  · next hnot => simp [hnot]

/-- **What is left of a path behind one at its front** is a relative path with the other names. -/
theorem names_of_relativeTo? {path base rest : Path} (hpath : path.isAbsolute = true)
    (hbase : base.isAbsolute = true) (h : path.relativeTo? base = some rest) :
    base.names ++ rest.names = path.names ∧ rest.isAbsolute = false := by
  unfold relativeTo? at h
  split at h
  · next hfront =>
    obtain rfl := Option.some.inj h
    rw [List.isPrefixOf_iff_prefix, components_prefix_iff hbase hpath] at hfront
    obtain ⟨hdropped, hrelative⟩ := names_dropComponents hpath base.names.length
    rw [components_of_isAbsolute hbase, List.length_cons, List.length_map, hdropped]
    exact ⟨List.prefix_iff_eq_append.mp hfront, hrelative⟩
  · exact absurd h (by simp)

/-! ## Components behind a path -/

/-- What stands behind a separator does not change the first component. -/
theorem headBody_append {cs : List Char} (h : cs ≠ []) (rest : List Char) :
    headBody (cs ++ '/' :: rest) = ((headBody cs).1, (headBody cs).2 ++ '/' :: rest) := by
  obtain ⟨c, more, rfl⟩ := List.exists_cons_of_ne_nil h
  by_cases hslash : c = '/'
  · subst hslash
    rfl
  · by_cases hpoint : c = '.'
    · subst hpoint
      cases more with
      | nil => rfl
      | cons d more =>
        by_cases hd : d = '/'
        · subst hd
          rfl
        · simp [headBody, hd]
    · simp [headBody, hslash, hpoint]

theorem components_of_append {path front : Path} {rest : List Char} (hne : front.text.toList ≠ [])
    (h : path.text.toList = front.text.toList ++ '/' :: rest) :
    path.components = front.components ++ (bodyNames rest).map .name := by
  simp only [components, h, headBody_append hne, bodyNames_append_cons, List.map_append,
    List.append_assoc]

/-- **The components of joined paths** are those of the first and then the names of the second,
where that has no first component of its own. -/
theorem components_join (path : Path) {other : String}
    (h : headBody other.toList = (none, other.toList)) :
    (path.join other).components = path.components ++ (bodyNames other.toList).map .name := by
  have hrelative : ¬ (Path.mk other).isAbsolute = true := by
    intro habsolute
    have hhead : other.toList.head? = some '/' := by simpa [isAbsolute] using habsolute
    obtain ⟨rest, hrest⟩ := List.head?_eq_some_iff.mp hhead
    rw [hrest] at h
    exact absurd (congrArg Prod.fst h) (by simp [headBody])
  rw [join, if_neg hrelative]
  split
  · next hlast =>
    rw [List.getLast?_eq_none_iff] at hlast
    have hnone : path.components = [] := by
      rw [components, hlast]
      rfl
    rw [hnone, components, String.toList_append, hlast, List.nil_append, h]
    rfl
  · next hlast =>
    obtain ⟨front, hfront⟩ := List.getLast?_eq_some_iff.mp hlast
    have htext : (Path.mk (path.text ++ other)).text.toList = front ++ '/' :: other.toList := by
      rw [String.toList_append, hfront, List.append_assoc, List.singleton_append]
    by_cases hnil : front = []
    · -- the path is the root directory
      subst hnil
      rw [components, htext, components, hfront]
      rfl
    · have hne : (Path.mk (String.ofList front)).text.toList ≠ [] := by simpa using hnil
      have hpath : path.components = (Path.mk (String.ofList front)).components := by
        have hends : path.text.toList = (Path.mk (String.ofList front)).text.toList ++ ['/'] := by
          simpa using hfront
        rw [components_of_append hne hends, bodyNames_nil, List.map_nil, List.append_nil]
      rw [hpath]
      exact components_of_append hne (by simpa using htext)
  · next hlast =>
    refine components_of_append (fun hnil => ?_) (by simp)
    rw [hnil] at hlast
    exact absurd hlast (by simp)

/-- A text without separator that does not start with a point has no first component of its own. -/
theorem headBody_of_not_mem {cs : List Char} (hsep : '/' ∉ cs) (hpoint : cs.head? ≠ some '.') :
    headBody cs = (none, cs) := by
  cases cs with
  | nil => rfl
  | cons c more =>
    have hc : c ≠ '/' := fun hc => hsep (hc ▸ List.mem_cons_self)
    have hpoint : c ≠ '.' := by simpa using hpoint
    simp [headBody, hc, hpoint]

/-- A path leads from another one through the given names, none of which goes back. -/
structure Leads (base path : Path) (through : List (List Char)) : Prop where
  components_eq : path.components = base.components ++ through.map .name
  names_eq : path.names = base.names ++ through
  dotDot_not_mem : dotDot ∉ through

theorem Leads.trans {base middle path : Path} {through more : List (List Char)}
    (h : Leads base middle through) (hmore : Leads middle path more) :
    Leads base path (through ++ more) where
  components_eq := by
    rw [hmore.components_eq, h.components_eq, List.map_append, List.append_assoc]
  names_eq := by rw [hmore.names_eq, h.names_eq, List.append_assoc]
  dotDot_not_mem := by
    rw [List.mem_append, not_or]
    exact ⟨h.dotDot_not_mem, hmore.dotDot_not_mem⟩

/-- **A path that leads on** stands for a place below the one that its base stands for. -/
theorem Leads.resolved_eq {base path : Path} {through : List (List Char)}
    (h : Leads base path through) : path.resolved = base.resolved ++ through := by
  rw [resolved, h.names_eq, List.foldl_append, foldl_takeName h.dotDot_not_mem, resolved]

/-- A text without separator that does not start with a point is one name; an empty one is none. -/
theorem bodyNames_of_not_mem {name : String} (hsep : '/' ∉ name.toList)
    (hpoint : name.toList.head? ≠ some '.') :
    bodyNames name.toList = if name = "" then [] else [name.toList] := by
  rw [bodyNames, Text.pieces_of_not_mem hsep]
  split
  · next hempty =>
    subst hempty
    rfl
  · next hname =>
    have hdot : name.toList ≠ ['.'] := fun hdot => hpoint (by rw [hdot]; rfl)
    simp [isName, hname, hdot]

/-- **A path leads to a name behind it**; an empty name leads nowhere. -/
theorem leads_join (base : Path) (name : String) (hsep : '/' ∉ name.toList)
    (hpoint : name.toList.head? ≠ some '.') :
    Leads base (base.join name) (if name = "" then [] else [name.toList]) where
  components_eq := by
    rw [components_join base (headBody_of_not_mem hsep hpoint), bodyNames_of_not_mem hsep hpoint]
  names_eq := by
    rw [names_join base (isAbsolute_of_not_mem hsep), names, names,
      bodyNames_of_not_mem hsep hpoint]
  dotDot_not_mem := by
    split
    · exact List.not_mem_nil
    · intro hmem
      apply hpoint
      rw [← List.mem_singleton.mp hmem]
      rfl

/-! ## Text of joined paths -/

/-- Behind a path that ends in a separator, a relative path needs no other. -/
theorem text_join_of_separator {path : Path} (hlast : path.text.toList.getLast? = some '/')
    {other : String} (h : (Path.mk other).isAbsolute = false) :
    (path.join other).text = path.text ++ other := by
  rw [join, if_neg (by simp [h])]
  split
  · rfl
  · rfl
  · next hne heq => exact absurd (Option.some.inj (heq.symm.trans hlast)) hne

/-- Behind any other path that is not empty, one is put in between. -/
theorem text_join {path : Path} {last : Char} (hlast : path.text.toList.getLast? = some last)
    (hsep : last ≠ '/') {other : String} (h : (Path.mk other).isAbsolute = false) :
    (path.join other).text = path.text ++ "/" ++ other := by
  rw [join, if_neg (by simp [h])]
  split
  · next heq => exact absurd (hlast.symm.trans heq) (by simp)
  · next heq => exact absurd (Option.some.inj (hlast.symm.trans heq)) hsep
  · rfl

/-- A joined path ends as the name behind it does. -/
theorem getLast?_text_join (path : Path) {name : String} (hsep : '/' ∉ name.toList)
    (hne : name.toList ≠ []) :
    (path.join name).text.toList.getLast? = name.toList.getLast? := by
  obtain ⟨front, htext, -, -⟩ := path.exists_join_eq_append hsep
  rw [htext, List.getLast?_append_of_ne_nil _ hne]

end Path

end KernelCatalog
