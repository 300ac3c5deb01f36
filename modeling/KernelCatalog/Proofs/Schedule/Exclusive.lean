import KernelCatalog.Proofs.Path
import KernelCatalog.Proofs.Schedule.Graph

/-!
# Exclusive names and outputs

A graph takes a stage that is compatible with those it has: no two of them have a name or an output
in common, where outputs are compared by their components. So it does not matter who offers stages,
and in which order: whatever was taken is exclusive, and the next offer is refused for its name or
for the first of its outputs that a stage owns already.

* `Graph.add_eq_ok_iff`: which stages a graph takes.
* `Graph.add_eq_error_iff`: why it refuses a stage.
* `Graph.stages_foldl_offer`: what a graph has after offers.
* `Graph.offers_keep_exclusive`: what holds of a graph after any offers, and of the next one.
-/

namespace KernelCatalog

namespace Stage

variable {σ : Type}

/-- Two stages can be in one graph: they have different names and no output in common. -/
structure Compatible (first second : Stage σ) : Prop where
  name_ne : first.name ≠ second.name
  outputs : ∀ mine ∈ second.outputs, ∀ theirs ∈ first.outputs, mine.same theirs = false

theorem Compatible.symm {first second : Stage σ} (h : first.Compatible second) :
    second.Compatible first where
  name_ne := h.name_ne.symm
  outputs mine hmine theirs htheirs := by rw [Path.same_comm, h.outputs theirs htheirs mine hmine]

/-- A stage owns a path that has the components of one of its outputs. -/
def Owns (stage : Stage σ) (path : Path) : Prop := ∃ output ∈ stage.outputs, path.same output = true

/-- No path is owned by two stages that can be in one graph. -/
theorem Compatible.not_owns {first second : Stage σ} (h : first.Compatible second) (path : Path) :
    ¬ (first.Owns path ∧ second.Owns path) := by
  rintro ⟨⟨theirs, htheirs, hfirst⟩, mine, hmine, hsecond⟩
  have hsame : mine.same theirs = true := by
    rw [Path.same_iff] at hfirst hsecond ⊢
    exact hsecond.symm.trans hfirst
  exact absurd hsame (by simp [h.outputs mine hmine theirs htheirs])

end Stage

namespace Graph

variable {σ : Type}

/-! ## Accepted stages -/

/-- No path is owned by a stage already if none is an output of one. -/
theorem conflict?_eq_none_iff {graph : Graph σ} {paths : List Path} :
    graph.conflict? paths = none ↔
      ∀ path ∈ paths, ∀ stage ∈ graph.stages, ∀ output ∈ stage.outputs,
        path.same output = false := by
  simp [conflict?, owner?]

theorem add_eq_ok_iff {graph grown : Graph σ} {stage : Stage σ} :
    graph.add stage = .ok grown ↔
      (∀ other ∈ graph.stages, other.Compatible stage) ∧ grown = ⟨graph.stages ++ [stage]⟩ := by
  have hcompatible : (∀ other ∈ graph.stages, other.Compatible stage) ↔
      stage.name ∉ graph.names ∧ graph.conflict? stage.outputs = none := by
    rw [conflict?_eq_none_iff]
    constructor
    · intro h
      refine ⟨fun hname => ?_, fun path hpath other hother => (h other hother).outputs path hpath⟩
      obtain ⟨other, hother, hsame⟩ := List.mem_map.mp hname
      exact (h other hother).name_ne hsame
    · rintro ⟨hname, houtputs⟩ other hother
      exact ⟨fun hsame => hname (List.mem_map.mpr ⟨other, hother, hsame⟩),
        fun path hpath => houtputs path hpath other hother⟩
  rw [hcompatible, add]
  split
  · next hname => simp_all
  · next hname =>
    split
    · next hconflict => simp [hconflict]
    · next hnone =>
      rw [Except.ok.injEq, eq_comm]
      exact ⟨fun h => ⟨⟨by simpa using hname, hnone⟩, h⟩, fun h => h.2⟩

/-! ## Refused stages -/

/-- The first output of a stage that a stage of the graph owns, and the earliest stage that does. -/
structure FirstConflict (graph : Graph σ) (stage : Stage σ) (path : Path) (owner : Stage σ) :
    Prop where
  outputs_eq : ∃ before after, stage.outputs = before ++ path :: after ∧
    ∀ other ∈ before, ∀ known ∈ graph.stages, ¬ known.Owns other
  stages_eq : ∃ earlier later, graph.stages = earlier ++ owner :: later ∧
    ∀ known ∈ earlier, ¬ known.Owns path
  owns : owner.Owns path

/-- Why a graph refuses a stage: its name is there, or it is new and there is a first conflict. -/
inductive Refuses (graph : Graph σ) (stage : Stage σ) : GraphError → Prop where
  | duplicate (hname : stage.name ∈ graph.names) :
      Refuses graph stage (.duplicateStage stage.name)
  | conflict {path : Path} {owner : Stage σ} (hname : stage.name ∉ graph.names)
      (hfirst : graph.FirstConflict stage path owner) :
      Refuses graph stage (.outputConflict path owner.name stage.name)

/-- A stage that has the path among its outputs owns it. -/
theorem any_same_iff {stage : Stage σ} {path : Path} :
    stage.outputs.any path.same = true ↔ stage.Owns path :=
  List.any_eq_true

/-- A path has no owner if no stage owns it. -/
theorem owner?_eq_none_iff {graph : Graph σ} {path : Path} :
    graph.owner? path = none ↔ ∀ known ∈ graph.stages, ¬ known.Owns path := by
  simp only [owner?, List.find?_eq_none, any_same_iff]

/-- The owner of a path is the earliest stage that owns it. -/
theorem owner?_eq_some_iff {graph : Graph σ} {path : Path} {owner : Stage σ} :
    graph.owner? path = some owner ↔ owner.Owns path ∧
      ∃ earlier later, graph.stages = earlier ++ owner :: later ∧
        ∀ known ∈ earlier, ¬ known.Owns path := by
  simp only [owner?, List.find?_eq_some_iff_append, any_same_iff, Bool.not_eq_true',
    ← Bool.not_eq_true]

/-- The conflict that is found is the first one. -/
theorem conflict?_eq_some_iff {graph : Graph σ} {stage : Stage σ} {path : Path}
    {owner : Stage σ} :
    graph.conflict? stage.outputs = some (path, owner) ↔ graph.FirstConflict stage path owner := by
  rw [conflict?, List.findSome?_eq_some_iff]
  constructor
  · rintro ⟨before, found, after, houtputs, hfound, hbefore⟩
    obtain ⟨_, howner, heq⟩ := Option.map_eq_some_iff.mp hfound
    obtain ⟨rfl, rfl⟩ := Prod.mk.inj heq
    obtain ⟨howns, hstages⟩ := owner?_eq_some_iff.mp howner
    refine ⟨⟨before, after, houtputs, fun other hother => ?_⟩, hstages, howns⟩
    exact owner?_eq_none_iff.mp (Option.map_eq_none_iff.mp (hbefore other hother))
  · rintro ⟨⟨before, after, houtputs, hbefore⟩, hstages, howns⟩
    refine ⟨before, path, after, houtputs, ?_, fun other hother => ?_⟩
    · rw [owner?_eq_some_iff.mpr ⟨howns, hstages⟩, Option.map_some]
    · rw [owner?_eq_none_iff.mpr (hbefore other hother), Option.map_none]

/-- **Why a stage is refused**: for its name, or else for its first conflict. -/
theorem add_eq_error_iff {graph : Graph σ} {stage : Stage σ} {e : GraphError} :
    graph.add stage = .error e ↔ graph.Refuses stage e := by
  constructor
  · intro h
    unfold add at h
    split at h
    · next hname =>
      obtain rfl := Except.error.inj h
      exact .duplicate (by simpa using hname)
    · next hname =>
      split at h
      · next path owner hconflict =>
        obtain rfl := Except.error.inj h
        exact .conflict (by simpa using hname) (conflict?_eq_some_iff.mp hconflict)
      · exact absurd h (by simp)
  · intro h
    cases h with
    | duplicate hname => rw [add, if_pos (by simpa using hname)]
    | conflict hname hfirst =>
      rw [add, if_neg (by simpa using hname), conflict?_eq_some_iff.mpr hfirst]

/-- **When a stage is refused**: if its name is there, or one of its outputs is owned. -/
theorem exists_add_eq_error_iff {graph : Graph σ} {stage : Stage σ} :
    (∃ e, graph.add stage = .error e) ↔ stage.name ∈ graph.names ∨
      ∃ path ∈ stage.outputs, ∃ owner ∈ graph.stages, owner.Owns path := by
  constructor
  · rintro ⟨e, h⟩
    cases add_eq_error_iff.mp h with
    | duplicate hname => exact Or.inl hname
    | conflict _ hfirst =>
      obtain ⟨before, after, houtputs, -⟩ := hfirst.outputs_eq
      obtain ⟨earlier, later, hstages, -⟩ := hfirst.stages_eq
      exact Or.inr ⟨_, by simp [houtputs], _, by simp [hstages], hfirst.owns⟩
  · intro h
    cases hadd : graph.add stage with
    | error e => exact ⟨e, rfl⟩
    | ok grown =>
      -- a stage that is taken is compatible with all others
      obtain ⟨hcompatible, -⟩ := add_eq_ok_iff.mp hadd
      rcases h with hname | ⟨path, hpath, owner, howner, howns⟩
      · obtain ⟨other, hother, hsame⟩ := List.mem_map.mp hname
        exact absurd hsame (hcompatible other hother).name_ne
      · have hself : stage.Owns path := ⟨path, hpath, beq_self_eq_true _⟩
        exact absurd ⟨howns, hself⟩ ((hcompatible owner howner).not_owns path)

/-! ## Calls that offer stages -/

/-- What an offer is answered. -/
def answer (graph : Graph σ) (stage : Stage σ) : Except GraphError Unit :=
  (graph.add stage).map fun _ => ()

/-- What offers are answered one after another. -/
def answersFrom (graph : Graph σ) : List (Stage σ) → List (Except GraphError Unit)
  | [] => []
  | stage :: rest => graph.answer stage :: answersFrom (graph.offer stage) rest

/-- The stages whose offers are accepted, in order. -/
def accepted (offers : List (Stage σ)) (answers : List (Except GraphError Unit)) :
    List (Stage σ) :=
  ((offers.zip answers).filter fun call => call.2.isOk).map Prod.fst

/-- An offer is refused if the stage is. -/
theorem answer_eq_error_iff {graph : Graph σ} {stage : Stage σ} {e : GraphError} :
    graph.answer stage = .error e ↔ graph.add stage = .error e := by
  rw [answer]
  cases graph.add stage with
  | error cause => simp [Except.map]
  | ok grown => simp [Except.map]

/-- A refused offer leaves the graph as it is. -/
theorem offer_of_answer_eq_error {graph : Graph σ} {stage : Stage σ} {e : GraphError}
    (h : graph.answer stage = .error e) : graph.offer stage = graph := by
  rw [offer, answer_eq_error_iff.mp h]

theorem answersFrom_append (graph : Graph σ) (offers more : List (Stage σ)) :
    graph.answersFrom (offers ++ more) =
      graph.answersFrom offers ++ (offers.foldl offer graph).answersFrom more := by
  induction offers generalizing graph with
  | nil => rfl
  | cons stage rest ih =>
    rw [List.cons_append, answersFrom, ih, answersFrom, List.foldl_cons, List.cons_append]

/-- The first stage is among those accepted if its offer is. -/
theorem accepted_cons (stage : Stage σ) (offers : List (Stage σ)) (answer : Except GraphError Unit)
    (answers : List (Except GraphError Unit)) :
    accepted (stage :: offers) (answer :: answers) =
      if answer.isOk then stage :: accepted offers answers else accepted offers answers := by
  rw [accepted, accepted, List.zip_cons_cons, List.filter_cons]
  split
  · rfl
  · rfl

/-- **A graph has the stages whose offers it accepted**, behind those that it had. -/
theorem stages_foldl_offer (graph : Graph σ) (offers : List (Stage σ)) :
    (offers.foldl offer graph).stages =
      graph.stages ++ accepted offers (graph.answersFrom offers) := by
  induction offers generalizing graph with
  | nil => simp [accepted, answersFrom]
  | cons stage rest ih =>
    rw [List.foldl_cons, ih, answersFrom, accepted_cons]
    cases hadd : graph.add stage with
    | error e =>
      have hrefused : graph.answer stage = .error e := answer_eq_error_iff.mpr hadd
      rw [offer_of_answer_eq_error hrefused, hrefused]
      rfl
    | ok grown =>
      have haccepted : (graph.answer stage).isOk = true := by
        rw [answer, hadd]
        rfl
      have hgrown : (graph.offer stage).stages = graph.stages ++ [stage] := by
        rw [offer, hadd]
        exact (of_add_eq_ok hadd).2
      rw [if_pos haccepted, hgrown, List.append_assoc, List.singleton_append]

theorem pairwise_compatible_ofOffers (offers : List (Stage σ)) :
    (ofOffers offers).stages.Pairwise Stage.Compatible := by
  have hempty : (empty : Graph σ).stages.Pairwise Stage.Compatible := List.Pairwise.nil
  refine List.foldlRecOn offers offer
    (motive := fun graph => graph.stages.Pairwise Stage.Compatible) hempty ?_
  intro graph hpairwise stage _
  unfold offer
  split
  · next hadd =>
    obtain ⟨hcompatible, rfl⟩ := add_eq_ok_iff.mp hadd
    rw [List.pairwise_append]
    refine ⟨hpairwise, List.pairwise_singleton _ _, ?_⟩
    intro other hother last hlast
    exact List.mem_singleton.mp hlast ▸ hcompatible other hother
  · exact hpairwise

/-- **A graph keeps names and outputs exclusive**, whatever is offered to it. It has exactly the
stages whose offers were accepted, in order; their names differ and no path is owned by two of them.
The next offer is refused exactly if its name is there or one of its outputs is owned: in the first
case as a duplicate, and otherwise for the first such output and the earliest stage that owns it. A
refused offer leaves the graph as it is. -/
theorem offers_keep_exclusive (offers : List (Stage σ)) :
    (ofOffers offers).stages = accepted offers (empty.answersFrom offers) ∧
    (ofOffers offers).names.Nodup ∧
    ((ofOffers offers).stages.Pairwise fun first second =>
      ∀ path, ¬ (first.Owns path ∧ second.Owns path)) ∧
    ∀ next : Stage σ,
      empty.answersFrom (offers ++ [next]) =
        empty.answersFrom offers ++ [(ofOffers offers).answer next] ∧
      ((∃ e, (ofOffers offers).answer next = .error e) ↔ next.name ∈ (ofOffers offers).names ∨
        ∃ path ∈ next.outputs, ∃ owner ∈ (ofOffers offers).stages, owner.Owns path) ∧
      (∀ e, (ofOffers offers).answer next = .error e ↔ (ofOffers offers).Refuses next e) ∧
      (∀ e, (ofOffers offers).answer next = .error e →
        ofOffers (offers ++ [next]) = ofOffers offers) := by
  refine ⟨stages_foldl_offer empty offers, nodup_names_ofOffers offers, ?_, fun next =>
    ⟨answersFrom_append empty offers [next], ?_, fun e => ?_, fun e hrefused => ?_⟩⟩
  · exact (pairwise_compatible_ofOffers offers).imp fun hcompatible => hcompatible.not_owns
  · simp only [answer_eq_error_iff, exists_add_eq_error_iff]
  · rw [answer_eq_error_iff, add_eq_error_iff]
  · rw [ofOffers, List.foldl_append]
    exact offer_of_answer_eq_error hrefused

end Graph

end KernelCatalog
