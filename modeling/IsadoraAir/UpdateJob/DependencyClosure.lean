import IsadoraAir.Foundation.Runs
import IsadoraAir.UpdateJob.Recovery

/-!
# The dependency closure of the required migrations

The search visits every ref that the required ones depend on, each once. It ends before its
recursion is deeper than the graph has nodes, and it raises where one of the refs is absent or
lies on a cycle.
-/

namespace IsadoraAir.UpdateJob

open Relation Reachability

variable {failure : Failure} {closure expected roots visiting : List MigrationRef}
  {f : List MigrationRef → MigrationRef → Except Failure (List MigrationRef)}
  {dependency ref : MigrationRef} {depth : ℕ} {nodes : Dict MigrationRef (List MigrationRef)}

/-- `dependency` is listed for `ref`. -/
def DependsOn (nodes : Dict MigrationRef (List MigrationRef)) (ref dependency : MigrationRef) :
    Prop :=
  dependency ∈ (nodes.get? ref).getD []

/-- Why the graph cannot be followed from `ref` on, and how the failure is classified. -/
inductive Breaks (nodes : Dict MigrationRef (List MigrationRef)) (ref : MigrationRef) :
    Failure → Prop
  | absent (h : ref ∉ nodes.keys) : Breaks nodes ref (.execution "TARGET_MIGRATION_MISMATCH" false)
  | cycle (h : TransGen (DependsOn nodes) ref ref) :
    Breaks nodes ref (.execution "TARGET_MIGRATION_CONFLICT" false)

/-- A ref where the graph breaks can be reached. -/
def BreaksFrom (nodes : Dict MigrationRef (List MigrationRef)) (ref : MigrationRef)
    (failure : Failure) : Prop :=
  ∃ broken, ReflTransGen (DependsOn nodes) ref broken ∧ Breaks nodes broken failure

theorem BreaksFrom.head
    (hstep : DependsOn nodes ref dependency) (h : BreaksFrom nodes dependency failure) :
    BreaksFrom nodes ref failure := by
  obtain ⟨broken, hreaches, hbreaks⟩ := h
  exact ⟨broken, .head hstep hreaches, hbreaks⟩

/-! ## What a visit does -/

/-- The refs that have been visited, seen from a call that is made while `visiting` are. -/
structure Visited (nodes : Dict MigrationRef (List MigrationRef))
    (visiting closure : List MigrationRef) : Prop where
  finished : Finished (DependsOn nodes) {ref | ref ∈ closure}
  subset : closure ⊆ nodes.keys
  nodup : closure.Nodup
  disjoint : ∀ ref ∈ visiting, ref ∉ closure

/-- `closure` has grown by refs that can be reached from one of `roots`, and these are in it. -/
structure Grows (nodes : Dict MigrationRef (List MigrationRef)) (roots : List MigrationRef)
    (closure closure' : List MigrationRef) : Prop where
  subset : closure ⊆ closure'
  contains : roots ⊆ closure'
  reached : ∀ ref ∈ closure', ref ∈ closure ∨
    ∃ root ∈ roots, ReflTransGen (DependsOn nodes) root ref

theorem Grows.cons {root : MigrationRef} {closure' closure'' : List MigrationRef}
    (h : Grows nodes [root] closure closure') (h' : Grows nodes roots closure' closure'') :
    Grows nodes (root :: roots) closure closure'' where
  subset := List.Subset.trans h.subset h'.subset
  contains := List.cons_subset.mpr ⟨h'.subset (h.contains (by simp)), h'.contains⟩
  reached := by
    intro ref href
    rcases h'.reached ref href with hbefore | ⟨root', hroot', hreaches⟩
    · rcases h.reached ref hbefore with hbefore | ⟨root', hroot', hreaches⟩
      · exact .inl hbefore
      · exact .inr ⟨root', List.mem_cons.mpr (.inl (List.mem_singleton.mp hroot')), hreaches⟩
    · exact .inr ⟨root', List.mem_cons_of_mem _ hroot', hreaches⟩

/-- What a part of the search makes of the closure: it fails where the graph breaks. -/
def Traverses (nodes : Dict MigrationRef (List MigrationRef))
    (visiting roots closure : List MigrationRef) : Except Failure (List MigrationRef) → Prop
  | .ok closure' => Visited nodes visiting closure' ∧ Grows nodes roots closure closure'
  | .error failure => ∃ root ∈ roots, BreaksFrom nodes root failure

/-- A loop of visits follows all its roots. -/
theorem traverses_foldlM

    (h : Visited nodes visiting closure)
    (hf : ∀ closure, Visited nodes visiting closure → ∀ root ∈ roots,
      Traverses nodes visiting [root] closure (f closure root)) :
    Traverses nodes visiting roots closure (roots.foldlM f closure) := by
  induction roots generalizing closure with
  | nil => exact ⟨h, fun _ h => h, by simp, fun _ h => .inl h⟩
  | cons root roots ih =>
    have hroot := hf closure h root (by simp)
    rw [List.foldlM_cons]
    cases hrun : f closure root with
    | error failure =>
      rw [hrun] at hroot
      obtain ⟨root', hroot', hbreaks⟩ := hroot
      exact ⟨root', List.mem_cons.mpr (.inl (List.mem_singleton.mp hroot')), hbreaks⟩
    | ok closure' =>
      rw [hrun] at hroot
      obtain ⟨hvisited, hgrows⟩ := hroot
      have hrest := ih hvisited fun closure hclosure root' hroot' =>
        hf closure hclosure root' (List.mem_cons_of_mem _ hroot')
      show Traverses nodes visiting (root :: roots) closure (roots.foldlM f closure')
      cases hfold : roots.foldlM f closure' with
      | error failure =>
        rw [hfold] at hrest
        obtain ⟨root', hroot', hbreaks⟩ := hrest
        exact ⟨root', List.mem_cons_of_mem _ hroot', hbreaks⟩
      | ok closure'' =>
        rw [hfold] at hrest
        exact ⟨hrest.1, hgrows.cons hrest.2⟩

/-- The refs being visited are on one path, and each a node of its own. -/
structure OnPath (nodes : Dict MigrationRef (List MigrationRef)) (visiting : List MigrationRef)
    (ref : MigrationRef) : Prop where
  nodup : visiting.Nodup
  subset : visiting ⊆ nodes.keys
  node : ref ∈ nodes.keys
  path : ∀ above ∈ visiting, TransGen (DependsOn nodes) above ref

theorem OnPath.length_le (h : OnPath nodes visiting ref) : visiting.length ≤ nodes.keys.length :=
  (List.subperm_of_subset h.nodup h.subset).length_le

theorem OnPath.next (h : OnPath nodes visiting ref) (hnew : ref ∉ visiting)
    (hstep : DependsOn nodes ref dependency) (hnode : dependency ∈ nodes.keys) :
    OnPath nodes (ref :: visiting) dependency where
  nodup := List.nodup_cons.mpr ⟨hnew, h.nodup⟩
  subset := List.cons_subset.mpr ⟨h.node, h.subset⟩
  node := hnode
  path := by
    intro above habove
    rcases List.mem_cons.mp habove with rfl | habove
    · exact .single hstep
    · exact .tail (h.path above habove) hstep

/-- The ref is finished once its dependencies are. -/
theorem Visited.finish
    (h : Visited nodes (ref :: visiting) closure) (href : ref ∈ nodes.keys) (hnew : ref ∉ visiting)
    (hdependencies : ∀ dependency, DependsOn nodes ref dependency → dependency ∈ closure) :
    Visited nodes visiting (closure ++ [ref]) := by
  have hfresh : ref ∉ closure := h.disjoint ref (by simp)
  constructor
  · have hset : {x | x ∈ closure ++ [ref]} = insert ref {x | x ∈ closure} := by
      ext x
      simp [or_comm]
    rw [hset]
    exact h.finished.insert hfresh hdependencies
  · exact List.append_subset.mpr ⟨h.subset, by simpa using href⟩
  · rw [List.nodup_append_comm, List.singleton_append, List.nodup_cons]
    exact ⟨hfresh, h.nodup⟩
  · intro x hx
    rw [List.mem_append, List.mem_singleton, not_or]
    refine ⟨h.disjoint x (List.mem_cons_of_mem _ hx), ?_⟩
    rintro rfl
    exact hnew hx

theorem visit_traverses (hpath : OnPath nodes visiting ref)
    (hdepth : nodes.keys.length < depth + visiting.length) (h : Visited nodes visiting closure) :
    Traverses nodes visiting [ref] closure (visit nodes depth visiting ref closure) := by
  induction depth generalizing visiting ref closure with
  | zero =>
    have hle := hpath.length_le
    omega
  | succ depth ih =>
    rw [visit]
    split
    · next hvisiting =>
      exact ⟨ref, by simp, ref, .refl, .cycle (hpath.path ref hvisiting)⟩
    · next hvisiting =>
      split
      · next hdone => exact ⟨h, fun _ h => h, by simpa using hdone, fun _ h => .inl h⟩
      · next hdone =>
        have hinside : Visited nodes (ref :: visiting) closure := by
          refine ⟨h.finished, h.subset, h.nodup, fun above habove => ?_⟩
          rcases List.mem_cons.mp habove with rfl | habove
          · exact hdone
          · exact h.disjoint above habove
        have hvisits : ∀ closure', Visited nodes (ref :: visiting) closure' →
            ∀ dependency ∈ (nodes.get? ref).getD [],
              Traverses nodes (ref :: visiting) [dependency] closure'
                (if dependency ∉ nodes.keys then
                  .error (.execution "TARGET_MIGRATION_MISMATCH" false)
                else visit nodes depth (ref :: visiting) dependency closure') := by
          intro closure' hclosure dependency hdependency
          split
          · next habsent => exact ⟨dependency, by simp, dependency, .refl, .absent habsent⟩
          · next hnode =>
            refine ih (hpath.next hvisiting hdependency (not_not.mp hnode)) ?_ hclosure
            rw [List.length_cons]
            omega
        have hloop := traverses_foldlM hinside hvisits
        cases hfold : ((nodes.get? ref).getD []).foldlM (fun closure dependency =>
            if dependency ∉ nodes.keys then .error (.execution "TARGET_MIGRATION_MISMATCH" false)
            else visit nodes depth (ref :: visiting) dependency closure) closure with
        | error failure =>
          rw [hfold] at hloop
          obtain ⟨dependency, hdependency, hbreaks⟩ := hloop
          exact ⟨ref, by simp, hbreaks.head hdependency⟩
        | ok closure' =>
          rw [hfold] at hloop
          obtain ⟨hvisited, hgrows⟩ := hloop
          refine ⟨hvisited.finish hpath.node hvisiting fun _ hd => hgrows.contains hd, ?_⟩
          refine ⟨List.Subset.trans hgrows.subset (List.subset_append_left _ _), by simp,
            fun x hx => ?_⟩
          rcases List.mem_append.mp hx with hx | hx
          · rcases hgrows.reached x hx with hbefore | ⟨dependency, hdependency, hreaches⟩
            · exact .inl hbefore
            · exact .inr ⟨ref, by simp, .head hdependency hreaches⟩
          · exact .inr ⟨ref, by simp, List.mem_singleton.mp hx ▸ .refl⟩

/-! ## The depth of the recursion -/

/-- The same search, with an answer of its own where the depth is used up. -/
def visitOr (nodes : Dict MigrationRef (List MigrationRef))
    (stuck : Except Failure (List MigrationRef)) :
    ℕ → List MigrationRef → MigrationRef → List MigrationRef →
      Except Failure (List MigrationRef)
  | 0, _, _, _ => stuck
  | depth + 1, visiting, ref, closure =>
    if ref ∈ visiting then .error (.execution "TARGET_MIGRATION_CONFLICT" false)
    else if ref ∈ closure then .ok closure
    else do
      let closure ← ((nodes.get? ref).getD []).foldlM
        (fun closure dependency =>
          if dependency ∉ nodes.keys then .error (.execution "TARGET_MIGRATION_MISMATCH" false)
          else visitOr nodes stuck depth (ref :: visiting) dependency closure)
        closure
      .ok (closure ++ [ref])

theorem foldlM_congr {g : List MigrationRef → MigrationRef → Except Failure (List MigrationRef)}
    {refs : List MigrationRef} (h : ∀ ref ∈ refs, ∀ closure, f closure ref = g closure ref)
    (closure : List MigrationRef) : refs.foldlM f closure = refs.foldlM g closure := by
  induction refs generalizing closure with
  | nil => rfl
  | cons ref refs ih =>
    obtain ⟨href, hrefs⟩ := List.forall_mem_cons.mp h
    rw [List.foldlM_cons, List.foldlM_cons, href closure]
    exact bind_congr fun closure' => ih hrefs closure'

/-- The depth is not used up, so a greater one and another answer there make no difference. -/
theorem visitOr_eq {depth' : ℕ}
    {stuck : Except Failure (List MigrationRef)} (hpath : OnPath nodes visiting ref)
    (hdepth : nodes.keys.length < depth + visiting.length) (hle : depth ≤ depth') :
    visitOr nodes stuck depth' visiting ref closure = visit nodes depth visiting ref closure := by
  induction depth generalizing depth' visiting ref closure with
  | zero =>
    have hlength := hpath.length_le
    omega
  | succ depth ih =>
    obtain ⟨depth', rfl⟩ : ∃ k, depth' = k + 1 := ⟨depth' - 1, by omega⟩
    rw [visit, visitOr]
    split
    · rfl
    · next hvisiting =>
      split
      · rfl
      · refine congrArg (· >>= _) (foldlM_congr (fun dependency hdependency closure' => ?_) closure)
        split
        · rfl
        · next hnode =>
          refine ih (hpath.next hvisiting hdependency (not_not.mp hnode)) ?_ (by omega)
          rw [List.length_cons]
          omega

/-! ## The closure -/

theorem onPath_root (href : ref ∈ nodes.keys) : OnPath nodes [] ref :=
  ⟨List.nodup_nil, List.nil_subset _, href, by simp⟩

/-- Nothing has been visited. -/
theorem visited_nil : Visited nodes [] [] where
  finished := by simpa using Finished.empty
  subset := List.nil_subset _
  nodup := List.nodup_nil
  disjoint := by simp

/-- The search for the expected refs that are all nodes of the graph. -/
theorem dependencyClosure_traverses (h : expected ⊆ nodes.keys) :
    Traverses nodes [] expected [] (dependencyClosure nodes expected) := by
  rw [dependencyClosure, if_neg (not_not.mpr h)]
  refine traverses_foldlM visited_nil fun closure hclosure ref href => ?_
  exact visit_traverses (onPath_root (h href)) (by simp) hclosure

theorem dependencyClosure_subset
    (h : dependencyClosure nodes expected = .ok closure) : closure ⊆ nodes.keys := by
  by_cases hexpected : expected ⊆ nodes.keys
  · have htraverses := dependencyClosure_traverses hexpected
    rw [h] at htraverses
    exact htraverses.1.subset
  · rw [dependencyClosure, if_pos hexpected] at h
    cases h

/-- Whatever the search raises, the graph breaks so. -/
theorem dependencyClosure_breaks (h : dependencyClosure nodes expected = .error failure) :
    ∃ ref ∈ expected, BreaksFrom nodes ref failure := by
  by_cases hexpected : expected ⊆ nodes.keys
  · have htraverses := dependencyClosure_traverses hexpected
    rw [h] at htraverses
    exact htraverses
  · rw [dependencyClosure, if_pos hexpected] at h
    cases h
    have habsent : ∃ ref ∈ expected, ref ∉ nodes.keys := by
      simpa [List.subset_def] using hexpected
    obtain ⟨ref, href, habsent⟩ := habsent
    exact ⟨ref, href, ref, .refl, .absent habsent⟩

/-- The refs of a closure are exactly those that can be reached, and the graph breaks at none. -/
theorem dependencyClosure_reaches (h : dependencyClosure nodes expected = .ok closure) :
    closure.Nodup ∧
    (∀ ref, ref ∈ closure ↔ ∃ root ∈ expected, ReflTransGen (DependsOn nodes) root ref) ∧
    ∀ ref ∈ closure, ∀ failure, ¬Breaks nodes ref failure := by
  by_cases hexpected : expected ⊆ nodes.keys
  · have htraverses := dependencyClosure_traverses hexpected
    rw [h] at htraverses
    obtain ⟨hvisited, hgrows⟩ := htraverses
    refine ⟨hvisited.nodup, fun ref => ⟨fun href => ?_, ?_⟩, ?_⟩
    · rcases hgrows.reached ref href with hnone | hreached
      · cases hnone
      · exact hreached
    · rintro ⟨root, hroot, hreaches⟩
      exact hvisited.finished.closed.reaches (hgrows.contains hroot) hreaches
    · rintro ref href failure (habsent | hcycle)
      · exact habsent (hvisited.subset href)
      · exact hvisited.finished.acyclic ref href hcycle
  · rw [dependencyClosure, if_pos hexpected] at h
    cases h

/-- The search ends within the depth of the graph's size; it raises if and only if a ref that can
be reached from an expected one is absent or lies on a cycle, and then says which; otherwise it
returns each ref that can be reached, once. -/
theorem dependencyClosure_spec (nodes : Dict MigrationRef (List MigrationRef))
    (expected : List MigrationRef) :
    (expected ⊆ nodes.keys → ∀ depth > nodes.keys.length, ∀ stuck,
      expected.foldlM (fun closure ref => visitOr nodes stuck depth [] ref closure) [] =
        dependencyClosure nodes expected) ∧
    (∀ failure, dependencyClosure nodes expected = .error failure →
      ∃ root ∈ expected, BreaksFrom nodes root failure) ∧
    ((∃ closure, dependencyClosure nodes expected = .ok closure) ↔
      ∀ root ∈ expected, ∀ failure, ¬BreaksFrom nodes root failure) ∧
    ∀ closure, dependencyClosure nodes expected = .ok closure → closure.Nodup ∧
      ∀ ref, ref ∈ closure ↔ ∃ root ∈ expected, ReflTransGen (DependsOn nodes) root ref := by
  refine ⟨fun hexpected depth hdepth stuck => ?_, fun _ => dependencyClosure_breaks, ?_, ?_⟩
  · rw [dependencyClosure, if_neg (not_not.mpr hexpected)]
    refine foldlM_congr (fun ref href closure => ?_) []
    exact visitOr_eq (onPath_root (hexpected href)) (by simp) hdepth
  · constructor
    · rintro ⟨closure, h⟩ root hroot failure ⟨broken, hreaches, hbreaks⟩
      obtain ⟨-, hmem, hwhole⟩ := dependencyClosure_reaches h
      exact hwhole broken ((hmem broken).mpr ⟨root, hroot, hreaches⟩) failure hbreaks
    · intro hwhole
      cases hrun : dependencyClosure nodes expected with
      | ok closure => exact ⟨closure, rfl⟩
      | error failure =>
        obtain ⟨root, hroot, hbreaks⟩ := dependencyClosure_breaks hrun
        exact absurd hbreaks (hwhole root hroot failure)
  · intro closure h
    obtain ⟨hnodup, hmem, -⟩ := dependencyClosure_reaches h
    exact ⟨hnodup, hmem⟩

/-- A graph in which two migrations share a dependency. -/
theorem dependencyClosure_spec_shared :
    let nodes : Dict MigrationRef (List MigrationRef) :=
      ⟨[("a.1", []), ("a.2", ["a.1"]), ("b.1", ["a.1"]), ("b.2", ["b.1", "a.2"])], by decide⟩
    dependencyClosure nodes ["b.2"] = .ok ["a.1", "b.1", "a.2", "b.2"] ∧
      ∀ ref, ref ∈ ["a.1", "b.1", "a.2", "b.2"] ↔
        ∃ root ∈ ["b.2"], ReflTransGen (DependsOn nodes) root ref := by
  intro nodes
  have hrun : dependencyClosure nodes ["b.2"] = .ok ["a.1", "b.1", "a.2", "b.2"] := by decide
  exact ⟨hrun, ((dependencyClosure_spec nodes ["b.2"]).2.2.2 _ hrun).2⟩

end IsadoraAir.UpdateJob
