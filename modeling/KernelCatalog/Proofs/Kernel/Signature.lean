import KernelCatalog.Kernel.Signature
import KernelCatalog.Proofs.Pairing
import KernelCatalog.Proofs.Text.Split

/-!
# Reading and writing kernel names with signatures

`Signature.split` and `Signature.parse` read exactly what `signature?` writes. A signature holds no
`__` and does not start with `_`, so the last `__` of `<kernel>__<signature>` is the separator
whatever the kernel is called, and a name has at most one reading.

* `parse_eq_ok_iff`: the parameters of a signature are those that it is the signature of.
* `split_eq_ok_iff`: a name is split at its last `__`, into two texts that are not empty.
* `names_iff`: a name has a reading exactly when it is written from it.
* `exists_names`: whatever can be written can be read.
-/

namespace KernelCatalog

namespace Scalar

theorem ofName?_eq_some_iff {text : String} {s : Scalar} : ofName? text = some s ↔ text = s.name := by
  constructor
  · intro h
    have hname := List.find?_some h
    exact (beq_iff_eq.mp hname).symm
  · rintro rfl
    exact ofName?_name s

end Scalar

namespace Param

/-- No scalar has a short name that starts like the token of a pointer. -/
theorem ofName?_marked (elem : Scalar) {mark : Char} (h : mark ∈ ['p', 'c', 'l']) :
    Scalar.ofName? (String.ofList (mark :: elem.name.toList)) = none := by
  simp only [List.mem_cons, List.not_mem_nil, or_false] at h
  rcases h with rfl | rfl | rfl <;> cases elem <;> decide

/-- A parameter is read from its own token and from no other. -/
theorem ofToken?_eq_some_iff {token : List Char} {p : Param} :
    ofToken? token = some p ↔ p.token? = some token := by
  constructor
  · intro h
    unfold ofToken? at h
    split at h
    · next type htype =>
      obtain rfl := Option.some.inj h
      have hname := Scalar.ofName?_eq_some_iff.mp htype
      rw [token?, ← hname, String.toList_ofList]
    · split at h
      case h_4 => exact absurd h (by simp)
      all_goals
        obtain ⟨elem, helem, rfl⟩ := Option.map_eq_some_iff.mp h
        have hname := Scalar.ofName?_eq_some_iff.mp helem
        rw [token?, ← hname, String.toList_ofList]
  · intro h
    cases p with
    | scalar type =>
      obtain rfl := Option.some.inj h
      simp [ofToken?]
    | pointer space elem mutable =>
      -- the token of a pointer is no scalar's name, so its mark decides
      rcases space <;> rcases mutable
      case workgroup.false => exact absurd h (by simp [token?])
      all_goals
        obtain rfl := Option.some.inj h
        simp only [ofToken?]
        rw [ofName?_marked elem (by simp), String.ofList_toList, Scalar.ofName?_name]
        rfl

/-- The characters that tokens are made of. -/
def tokenChars : List Char := "123468bcfilopu".toList

/-- A token is a text of these characters that is not empty. -/
theorem token?_chars {p : Param} {token : List Char} (h : p.token? = some token) :
    token ≠ [] ∧ token ⊆ tokenChars := by
  cases p with
  | scalar type =>
    obtain rfl := Option.some.inj h
    cases type <;> decide
  | pointer space elem mutable =>
    rcases space <;> rcases mutable
    case workgroup.false => exact absurd h (by simp [token?])
    all_goals
      obtain rfl := Option.some.inj h
      cases elem <;> decide

/-- Only a constant pointer to local memory has no token. -/
theorem exists_token?_iff {p : Param} :
    (∃ token, p.token? = some token) ↔ ∀ elem, .pointer .workgroup elem false ≠ p := by
  cases p with
  | scalar type => simp [token?]
  | pointer space elem mutable => rcases space <;> rcases mutable <;> simp [token?]

end Param

namespace Signature

/-- Parameters are read from tokens exactly when the tokens are theirs, one by one. -/
theorem parseTokens_eq_ok_iff {tokens : List (List Char)} {params : List Param} :
    parseTokens tokens = .ok params ↔
      List.Forall₂ (fun p token => p.token? = some token) params tokens := by
  induction tokens generalizing params with
  | nil => simp [parseTokens, eq_comm]
  | cons token rest ih =>
    rw [List.forall₂_cons_right_iff]
    simp only [parseTokens]
    constructor
    · intro h
      split at h
      · exact absurd h (by simp)
      · next p hp =>
        split at h
        · next more hmore =>
          obtain rfl := Except.ok.inj h
          exact ⟨p, more, Param.ofToken?_eq_some_iff.mp hp, ih.mp hmore, rfl⟩
        · exact absurd h (by simp)
    · rintro ⟨p, more, hp, hmore, rfl⟩
      rw [Param.ofToken?_eq_some_iff.mpr hp, ih.mpr hmore]

/-- All parameters have tokens exactly when they have them one by one. -/
theorem mapM_token?_eq_some_iff {params : List Param} {tokens : List (List Char)} :
    params.mapM Param.token? = some tokens ↔
      List.Forall₂ (fun p token => p.token? = some token) params tokens := by
  induction params generalizing tokens with
  | nil => simp [eq_comm]
  | cons p params ih =>
    rw [List.forall₂_cons_left_iff, List.mapM_cons]
    simp only [Option.bind_eq_bind, Option.bind_eq_some_iff, Option.pure_def, Option.some.injEq]
    constructor
    · rintro ⟨token, htoken, more, hmore, rfl⟩
      exact ⟨token, more, htoken, ih.mp hmore, rfl⟩
    · rintro ⟨token, more, htoken, hmore, rfl⟩
      exact ⟨token, htoken, more, ih.mpr hmore, rfl⟩

/-- The signature of parameters is their tokens with `_` between them. -/
theorem signature?_cons_eq_some_iff {p : Param} {params : List Param} {signature : String} :
    signature? (p :: params) = some signature ↔
      ∃ tokens, List.Forall₂ (fun p token => p.token? = some token) (p :: params) tokens ∧
        String.ofList (Text.unpieces '_' tokens) = signature := by
  simp only [signature?, Option.map_eq_some_iff, mapM_token?_eq_some_iff]

/-- Tokens are not empty and hold no `_`. -/
theorem tokens_shape {params : List Param} {tokens : List (List Char)}
    (h : List.Forall₂ (fun p token => p.token? = some token) params tokens) :
    ∀ token ∈ tokens, token ≠ [] ∧ '_' ∉ token := by
  intro token hmem
  obtain ⟨p, -, hp⟩ := Pairing.exists_left h hmem
  obtain ⟨hne, hchars⟩ := Param.token?_chars hp
  exact ⟨hne, fun h => absurd (hchars h) (by decide)⟩

/-- The tokens of parameters are found again by cutting their signature. -/
theorem pieces_unpieces_tokens {p : Param} {params : List Param} {tokens : List (List Char)}
    (h : List.Forall₂ (fun p token => p.token? = some token) (p :: params) tokens) :
    Text.pieces '_' (Text.unpieces '_' tokens) = tokens := by
  have hne : tokens ≠ [] := by
    rintro rfl
    cases h
  exact Text.pieces_unpieces hne fun token hmem => (tokens_shape h token hmem).2

/-- The signature of an empty parameter list is no token, so nothing else is written like it. -/
theorem signature?_cons_ne_empty {p : Param} {params : List Param} {signature : String}
    (h : signature? (p :: params) = some signature) : signature ≠ empty := by
  rintro rfl
  obtain ⟨tokens, htokens, hjoin⟩ := signature?_cons_eq_some_iff.mp h
  have hchars : Text.unpieces '_' tokens = ['v'] := by
    rw [← String.toList_ofList (l := Text.unpieces '_' tokens), hjoin]
    decide
  have hpieces := pieces_unpieces_tokens htokens
  rw [hchars, Text.pieces_of_not_mem (by decide)] at hpieces
  subst hpieces
  obtain ⟨hp, -⟩ := List.forall₂_cons.mp htokens
  have hnone : Param.ofToken? ['v'] = none := by decide
  rw [Param.ofToken?_eq_some_iff.mpr hp] at hnone
  exact absurd hnone (by simp)

/-- A signature is read as the parameters that it is written from, and as no others. -/
theorem parse_eq_ok_iff {signature : String} {params : List Param} :
    parse signature = .ok params ↔ signature? params = some signature := by
  unfold parse
  split
  · next hempty =>
    subst hempty
    constructor
    · intro h
      obtain rfl := Except.ok.inj h
      rfl
    · intro h
      cases params with
      | nil => rfl
      | cons p params => exact absurd rfl (signature?_cons_ne_empty h)
  · next hempty =>
    rw [parseTokens_eq_ok_iff]
    cases params with
    | nil =>
      -- only the empty signature stands for no parameters: cutting always leaves a piece
      have hpieces := Text.pieces_ne_nil '_' signature.toList
      simp [signature?, Ne.symm hempty, hpieces]
    | cons p params =>
      rw [signature?_cons_eq_some_iff]
      constructor
      · intro h
        exact ⟨_, h, by rw [Text.unpieces_pieces, String.ofList_toList]⟩
      · rintro ⟨tokens, htokens, rfl⟩
        rwa [String.toList_ofList, pieces_unpieces_tokens htokens]

/-- Parameters have a signature exactly when none is a constant pointer to local memory. -/
theorem isSome_signature?_iff {params : List Param} :
    (signature? params).isSome ↔ ∀ elem, .pointer .workgroup elem false ∉ params := by
  cases params with
  | nil => simp [signature?]
  | cons p params =>
    have htokens : (∃ tokens, List.Forall₂ (fun p token => p.token? = some token) (p :: params)
        tokens) ↔ ∀ elem, .pointer .workgroup elem false ∉ p :: params := by
      rw [Pairing.exists_forall₂_iff]
      simp only [Param.exists_token?_iff]
      constructor
      · intro h elem hmem
        exact h _ hmem elem rfl
      · rintro h q hmem elem rfl
        exact h elem hmem
    rw [← htokens, Option.isSome_iff_exists]
    simp only [signature?_cons_eq_some_iff]
    constructor
    · rintro ⟨signature, tokens, htokens, -⟩
      exact ⟨tokens, htokens⟩
    · rintro ⟨tokens, htokens⟩
      exact ⟨_, tokens, htokens, rfl⟩

theorem splitLast_cons_of_some {c : Char} {rest kernel signature : List Char}
    (h : splitLast rest = some (kernel, signature)) :
    splitLast (c :: rest) = some (c :: kernel, signature) := by
  rw [splitLast.eq_def]
  simp only [h]

/-- `__` is the separator when none follows. -/
theorem splitLast_separator {signature : List Char} (h : splitLast ('_' :: signature) = none) :
    splitLast ('_' :: '_' :: signature) = some ([], signature) := by
  rw [splitLast, h]

theorem splitLast_append_ne_none (front back : List Char) :
    splitLast (front ++ '_' :: '_' :: back) ≠ none := by
  induction front with
  | nil =>
    cases h : splitLast ('_' :: back) with
    | none => simp [splitLast_separator h]
    | some cut => simp [splitLast_cons_of_some h]
  | cons c front ih =>
    obtain ⟨cut, hcut⟩ := Option.ne_none_iff_exists'.mp ih
    simp [splitLast_cons_of_some hcut]

/-- A text is split at a `__` behind which there is none, not even one that overlaps it. -/
theorem splitLast_eq_some_iff {cs kernel signature : List Char} :
    splitLast cs = some (kernel, signature) ↔
      cs = kernel ++ '_' :: '_' :: signature ∧ splitLast ('_' :: signature) = none := by
  constructor
  · intro h
    induction cs generalizing kernel with
    | nil => exact absurd h (by simp [splitLast])
    | cons c rest ih =>
      -- a split inside the rest carries over, and otherwise the text itself starts with `__`
      cases hrest : splitLast rest with
      | some cut =>
        rw [splitLast_cons_of_some hrest] at h
        obtain ⟨rfl, rfl⟩ := Prod.mk.inj (Option.some.inj h)
        obtain ⟨hcut, hnone⟩ := ih hrest
        exact ⟨by rw [hcut]; rfl, hnone⟩
      | none =>
        rw [splitLast.eq_def] at h
        simp only [hrest] at h
        split at h
        · obtain ⟨rfl, rfl⟩ := Prod.mk.inj (Option.some.inj h)
          exact ⟨rfl, hrest⟩
        · exact absurd h (by simp)
  · rintro ⟨rfl, hnone⟩
    induction kernel with
    | nil => exact splitLast_separator hnone
    | cons c kernel ih => exact splitLast_cons_of_some ih

/-- `base` is cut at its last `__` into `kernel` and `signature`. -/
def CutAtLast (base kernel signature : String) : Prop :=
  base = kernel ++ "__" ++ signature ∧
    ∀ front back : String, base = front ++ "__" ++ back → front.length ≤ kernel.length

/-- What `splitLast` finds is the cut at the last `__`. -/
theorem splitLast_toList_eq_some_iff {base kernel signature : String} :
    splitLast base.toList = some (kernel.toList, signature.toList) ↔
      CutAtLast base kernel signature := by
  have hchars : ∀ front back : String, base = front ++ "__" ++ back ↔
      base.toList = front.toList ++ '_' :: '_' :: back.toList := by
    intro front back
    rw [← String.toList_inj]
    simp
  rw [splitLast_eq_some_iff, CutAtLast, hchars]
  refine and_congr_right fun hbase => ?_
  constructor
  · intro hnone front back hcut
    rw [hchars, hbase] at hcut
    rcases List.append_eq_append_iff.mp hcut with ⟨between, hfront, hrest⟩ | ⟨between, hkernel, -⟩
    · -- a `__` behind the kernel would leave one inside `_<signature>`
      cases between with
      | nil => simp [← String.length_toList, hfront]
      | cons c between =>
        obtain ⟨-, hsignature⟩ := List.cons.inj hrest
        rw [hsignature] at hnone
        exact absurd hnone (splitLast_append_ne_none between back.toList)
    · simp [← String.length_toList, hkernel]
  · intro hlast
    cases hcut : splitLast ('_' :: signature.toList) with
    | none => rfl
    | some cut =>
      obtain ⟨hsignature, -⟩ := splitLast_eq_some_iff.mp hcut
      have hle := hlast (kernel ++ "_" ++ String.ofList cut.1) (String.ofList cut.2) (by
        rw [hchars, hbase, hsignature]
        simp)
      have hlen : "_".length = 1 := rfl
      simp only [String.length_append, hlen] at hle
      omega

theorem CutAtLast.unique {base kernel signature kernel' signature' : String}
    (h : CutAtLast base kernel signature) (h' : CutAtLast base kernel' signature') :
    kernel = kernel' ∧ signature = signature' := by
  have hcut := splitLast_toList_eq_some_iff.mpr h
  rw [splitLast_toList_eq_some_iff.mpr h'] at hcut
  obtain ⟨hkernel, hsignature⟩ := Prod.mk.inj (Option.some.inj hcut)
  exact ⟨(String.toList_inj.mp hkernel).symm, (String.toList_inj.mp hsignature).symm⟩

/-- A name is read as the kernel and the signature around its last `__`, neither of them empty. -/
theorem split_eq_ok_iff {base kernel signature : String} :
    split base = .ok (kernel, signature) ↔
      kernel ≠ "" ∧ signature ≠ "" ∧ CutAtLast base kernel signature := by
  rw [← splitLast_toList_eq_some_iff]
  unfold split
  constructor
  · intro h
    split at h
    · exact absurd h (by simp)
    · next front back hcut =>
      split at h
      · exact absurd h (by simp)
      · next hfront =>
        split at h
        · exact absurd h (by simp)
        · next hback =>
          obtain ⟨rfl, rfl⟩ := Prod.mk.inj (Except.ok.inj h)
          exact ⟨by simpa using hfront, by simpa using hback, by simpa using hcut⟩
  · rintro ⟨hkernel, hsignature, hcut⟩
    rw [hcut]
    simp [hkernel, hsignature]

/-- `base` is read as the overload of `kernel` that takes `params`. -/
def Names (base kernel : String) (params : List Param) : Prop :=
  ∃ signature, split base = .ok (kernel, signature) ∧ parse signature = .ok params

/-- A character in front makes no `__` unless it is the first half of one. -/
theorem splitLast_cons_of_none {c : Char} {rest : List Char} (h : splitLast rest = none)
    (hc : c = '_' → ∀ back, rest ≠ '_' :: back) : splitLast (c :: rest) = none := by
  rw [splitLast.eq_def]
  simp only [h]
  split
  · exact absurd rfl (hc rfl _)
  · rfl

/-- A text without `_` in front makes no `__`. -/
theorem splitLast_append_of_not_mem {token rest : List Char} (htoken : '_' ∉ token)
    (h : splitLast rest = none) : splitLast (token ++ rest) = none := by
  induction token with
  | nil => exact h
  | cons c token ih =>
    have hc : c ≠ '_' := fun heq => htoken (by simp [heq])
    have hrest := ih fun hmem => htoken (List.mem_cons_of_mem c hmem)
    exact splitLast_cons_of_none hrest fun heq => absurd heq hc

/-- Joined tokens hold no `__`, not even behind a `_`. -/
theorem splitLast_unpieces {tokens : List (List Char)}
    (h : ∀ token ∈ tokens, token ≠ [] ∧ '_' ∉ token) :
    splitLast ('_' :: Text.unpieces '_' tokens) = none := by
  induction tokens with
  | nil => rfl
  | cons token more ih =>
    obtain ⟨hne, hfree⟩ := h token (by simp)
    -- the token keeps the `_` in front apart from the one behind it
    have hapart : ∀ rest, splitLast rest = none → splitLast ('_' :: (token ++ rest)) = none := by
      intro rest hrest
      refine splitLast_cons_of_none (splitLast_append_of_not_mem hfree hrest) fun _ back hback => ?_
      cases token with
      | nil => exact hne rfl
      | cons c token =>
        obtain ⟨rfl, -⟩ := List.cons.inj hback
        exact hfree (by simp)
    cases more with
    | nil => simpa [Text.unpieces] using hapart [] rfl
    | cons next more =>
      rw [Text.unpieces]
      · exact hapart _ (ih fun t ht => h t (List.mem_cons_of_mem _ ht))
      · simp

/-- A signature holds no `__`, not even behind a `_`. -/
theorem splitLast_signature {params : List Param} {signature : String}
    (h : signature? params = some signature) : splitLast ('_' :: signature.toList) = none := by
  cases params with
  | nil =>
    obtain rfl := Option.some.inj h
    decide
  | cons p params =>
    obtain ⟨tokens, htokens, rfl⟩ := signature?_cons_eq_some_iff.mp h
    rw [String.toList_ofList]
    exact splitLast_unpieces (tokens_shape htokens)

theorem signature?_ne_nil {params : List Param} {signature : String}
    (h : signature? params = some signature) : signature ≠ "" := by
  rintro rfl
  have hparse := parse_eq_ok_iff.mpr h
  have herror : parse "" = .error (.unknownToken "") := by rfl
  rw [herror] at hparse
  exact absurd hparse (by simp)

/-- No signature holds the last letter of a descriptor's name. -/
theorem not_mem_signature {params : List Param} {signature : String}
    (h : signature? params = some signature) : 'd' ∉ signature.toList := by
  cases params with
  | nil =>
    obtain rfl := Option.some.inj h
    decide
  | cons p params =>
    obtain ⟨tokens, htokens, rfl⟩ := signature?_cons_eq_some_iff.mp h
    rw [String.toList_ofList]
    intro hmem
    rcases Text.mem_unpieces hmem with heq | ⟨token, htoken, hchar⟩
    · exact absurd heq (by decide)
    · obtain ⟨q, -, hq⟩ := Pairing.exists_left htokens htoken
      exact absurd ((Param.token?_chars hq).2 hchar) (by decide)

/-- A name is read as an overload exactly when it is the name that is written for it. -/
theorem names_iff {base kernel : String} {params : List Param} :
    Names base kernel params ↔
      kernel ≠ "" ∧ ∃ signature, signature? params = some signature ∧
        base = kernel ++ "__" ++ signature := by
  constructor
  · rintro ⟨signature, hsplit, hparse⟩
    obtain ⟨hkernel, -, hbase, -⟩ := split_eq_ok_iff.mp hsplit
    exact ⟨hkernel, signature, parse_eq_ok_iff.mp hparse, hbase⟩
  · rintro ⟨hkernel, signature, hsignature, rfl⟩
    refine ⟨signature, split_eq_ok_iff.mpr ⟨hkernel, signature?_ne_nil hsignature, ?_⟩,
      parse_eq_ok_iff.mpr hsignature⟩
    rw [← splitLast_toList_eq_some_iff, splitLast_eq_some_iff]
    exact ⟨by simp, splitLast_signature hsignature⟩

theorem Names.unique {base kernel kernel' : String} {params params' : List Param}
    (h : Names base kernel params) (h' : Names base kernel' params') :
    kernel = kernel' ∧ params = params' := by
  obtain ⟨signature, hsplit, hparse⟩ := h
  obtain ⟨signature', hsplit', hparse'⟩ := h'
  obtain ⟨rfl, rfl⟩ := Prod.mk.inj (Except.ok.inj (hsplit.symm.trans hsplit'))
  exact ⟨rfl, Except.ok.inj (hparse.symm.trans hparse')⟩

theorem Names.base_unique {base base' kernel : String} {params : List Param}
    (h : Names base kernel params) (h' : Names base' kernel params) : base = base' := by
  obtain ⟨-, signature, hsignature, rfl⟩ := names_iff.mp h
  obtain ⟨-, signature', hsignature', rfl⟩ := names_iff.mp h'
  rw [Option.some.inj (hsignature.symm.trans hsignature')]

/-- A kernel that is not empty and parameters that all have tokens are read from the name that is
written for them. -/
theorem exists_names {kernel : String} {params : List Param} (hkernel : kernel ≠ "")
    (hparams : ∀ elem, .pointer .workgroup elem false ∉ params) :
    ∃ signature, signature? params = some signature ∧
      Names (kernel ++ "__" ++ signature) kernel params := by
  obtain ⟨signature, hsignature⟩ := Option.isSome_iff_exists.mp (isSome_signature?_iff.mpr hparams)
  exact ⟨signature, hsignature, names_iff.mpr ⟨hkernel, signature, hsignature, rfl⟩⟩

/-- **Names of overloads are read as they are written, and in no other way.** A name has the reading
`(kernel, params)` exactly when the kernel is not empty, no parameter is a constant pointer to local
memory, and the name is the kernel with `__` and the signature behind it. So a name that is read has
one reading, from which it is written again, and whatever the kernel is called its overloads are
read from the names that are written for them. -/
theorem reading_iff_written (base : String) :
    (∀ kernel params, Names base kernel params ↔
      kernel ≠ "" ∧ (∀ elem, .pointer .workgroup elem false ∉ params) ∧
        ∃ signature, signature? params = some signature ∧ base = kernel ++ "__" ++ signature) ∧
    ((∃ kernel params, Names base kernel params) →
      ∃! reading : String × List Param, Names base reading.1 reading.2) ∧
    ∀ kernel params, kernel ≠ "" → (∀ elem, .pointer .workgroup elem false ∉ params) →
      ∃ signature, signature? params = some signature ∧
        Names (kernel ++ "__" ++ signature) kernel params := by
  refine ⟨fun kernel params => ?_, ?_, fun kernel params => exists_names⟩
  · rw [names_iff]
    refine and_congr_right fun _ => ⟨?_, fun ⟨_, hwritten⟩ => hwritten⟩
    rintro ⟨signature, hsignature, hbase⟩
    have hsome : (signature? params).isSome := by simp [hsignature]
    exact ⟨isSome_signature?_iff.mp hsome, signature, hsignature, hbase⟩
  · rintro ⟨kernel, params, hnames⟩
    refine ⟨(kernel, params), hnames, ?_⟩
    rintro ⟨kernel', params'⟩ hnames'
    obtain ⟨hkernel, hparams⟩ := hnames'.unique hnames
    exact Prod.ext hkernel hparams

/-- An underscore at the end of a kernel's name stays with it. -/
example : Names "a___v" "a_" [] := names_iff.mpr ⟨by decide, "v", by decide, by decide⟩

end Signature

end KernelCatalog
