import Calculator.Environment.Program
import Mathlib.Data.List.Nodup

/-!
# Transactions

The environment, the mapping it was made from and the snapshots are held in mappings of their own,
and every step keeps them apart. So what a step does depends on what these mappings hold and not on
where they are, and the copy that a transaction has saved still holds the variables of its start
when the environment is restored from it, whatever the steps of the block are.
-/

namespace Calculator.Environment

/-! ### Programs -/

/-- What holds of every step that is not a block, and of every block if it holds of its steps, holds
of all steps. -/
theorem Step.inductionOnBlocks {motive : Step → Prop}
    (basic : ∀ s, (∀ steps, s ≠ .transaction steps) → motive s)
    (transaction : ∀ steps, (∀ s ∈ steps, motive s) → motive (.transaction steps)) :
    ∀ s, motive s
  | .transaction steps =>
    transaction steps fun s _ => Step.inductionOnBlocks basic transaction s
  | .set x v => basic (.set x v) nofun
  | .get x => basic (.get x) nofun
  | .contains x => basic (.contains x) nofun
  | .size => basic .size nofun
  | .debugText => basic .debugText nofun
  | .snapshot => basic .snapshot nofun
  | .restore i => basic (.restore i) nofun
  | .amendSnapshot i x v => basic (.amendSnapshot i x v) nofun
  | .amendInitial x v => basic (.amendInitial x v) nofun
  | .fail e => basic (.fail e) nofun

lemma Step.runAll_append (steps steps' : List Step) (w : Workspace) :
    (Step.runAll (steps ++ steps') w).2 = (Step.runAll steps' (Step.runAll steps w).2).2 := by
  induction steps generalizing w with
  | nil => rfl
  | cons s steps ih => exact ih (s.run w).2

/-- How steps relate workspaces is how a block of them does. -/
theorem Step.runBlock_relates {R : Workspace → Workspace → Prop} (refl : ∀ w, R w w)
    (trans : ∀ {w w' w''}, R w w' → R w' w'' → R w w'') {steps : List Step}
    (hsteps : ∀ s ∈ steps, ∀ w, R w (s.run w).2) (w : Workspace) :
    R w (Step.runBlock steps w).workspace := by
  induction steps generalizing w with
  | nil => exact refl w
  | cons s steps ih =>
    obtain ⟨hs, hsteps⟩ := List.forall_mem_cons.mp hsteps
    have hstep := hs w
    simp only [Step.runBlock]
    rcases hrun : s.run w with ⟨_ | answer, w'⟩ <;> rw [hrun] at hstep
    · exact hstep
    · exact trans hstep (ih hsteps w')

namespace Workspace

/-! ### What workspaces hold -/

/-- What the mappings of a workspace hold, wherever they are. -/
structure Contents where
  env : Environment
  initial : Environment
  snapshots : List Environment

/-- What the mappings of a workspace hold. -/
def contents (w : Workspace) : Contents :=
  ⟨w.current, w.memory.read w.initial, w.snapshots.map w.memory.read⟩

lemma env_contents (w : Workspace) : w.contents.env = w.current := rfl

/-- The addresses of all mappings that are in use. -/
def addresses (w : Workspace) : List Address := w.env :: w.initial :: w.snapshots

/-- The mappings in use are different ones. -/
structure Separate (w : Workspace) : Prop where
  nodup : w.addresses.Nodup
  lt_next : ∀ a ∈ w.addresses, a < w.memory.next

variable {w w' w'' v : Workspace} {a : Address} {i : Nat} {name : String} {value : Int}

lemma env_mem_addresses : w.env ∈ w.addresses := List.mem_cons_self

lemma initial_mem_addresses : w.initial ∈ w.addresses := List.mem_cons_of_mem _ List.mem_cons_self

lemma mem_addresses_of_mem (ha : a ∈ w.snapshots) : a ∈ w.addresses :=
  List.mem_cons_of_mem _ (List.mem_cons_of_mem _ ha)

lemma separate_ofEntries (entries : List (String × Int)) : (ofEntries entries).Separate where
  nodup := by
    show [1, 0].Nodup
    decide
  lt_next := by
    show ∀ a ∈ [1, 0], a < 2
    decide

lemma Separate.next_notMem (h : w.Separate) : w.memory.next ∉ w.addresses := fun hmem =>
  absurd (h.lt_next _ hmem) (Nat.lt_irrefl _)

/-! ### What steps leave alone -/

/-- The first workspace can become the second one: mappings that were in use may have been changed
and new ones made, but mappings that were not in use have been left alone. -/
structure Evolves (w w' : Workspace) : Prop where
  separate : w'.Separate
  next_le : w.memory.next ≤ w'.memory.next
  addresses : ∀ a ∈ w'.addresses, a ∈ w.addresses ∨ w.memory.next ≤ a
  read_eq : ∀ a < w.memory.next, a ∉ w.addresses → w'.memory.read a = w.memory.read a

namespace Evolves

lemma refl (h : w.Separate) : Evolves w w :=
  ⟨h, Nat.le_refl _, fun _ => .inl, fun _ _ _ => rfl⟩

lemma trans (h : Evolves w w') (h' : Evolves w' w'') : Evolves w w'' where
  separate := h'.separate
  next_le := Nat.le_trans h.next_le h'.next_le
  addresses a ha := (h'.addresses a ha).elim (h.addresses a) fun hnext =>
    .inr (Nat.le_trans h.next_le hnext)
  read_eq a ha hunused := by
    have hunused' : a ∉ w'.addresses := fun hmem =>
      (h.addresses a hmem).elim hunused (Nat.not_le_of_lt ha)
    rw [h'.read_eq a (Nat.lt_of_lt_of_le ha h.next_le) hunused', h.read_eq a ha hunused]

lemma assign (h : w.Separate) (ha : a ∈ w.addresses) : Evolves w (w.assign a name value) where
  separate := ⟨h.nodup, fun b hb => by
    rw [Workspace.assign, Memory.next_set]
    exact h.lt_next b hb⟩
  next_le := Nat.le_of_eq (Memory.next_set _ _ _).symm
  addresses _ := .inl
  read_eq b _ hunused := Memory.read_set_of_ne _ _ _ fun hab => hunused (hab ▸ ha)

/-- A copy is made, and the only mapping that may come into use is the copy. -/
lemma of_copy (h : w.Separate) (hmemory : w'.memory = w.memory.copy a)
    (hnodup : w'.addresses.Nodup)
    (haddresses : ∀ b ∈ w'.addresses, b ∈ w.addresses ∨ b = w.memory.next) : Evolves w w' where
  separate := by
    refine ⟨hnodup, fun b hb => ?_⟩
    rw [hmemory, Memory.next_copy]
    rcases haddresses b hb with hb | rfl
    · exact Nat.lt_succ_of_lt (h.lt_next b hb)
    · exact Nat.lt_succ_self _
  next_le := by
    rw [hmemory, Memory.next_copy]
    exact Nat.le_succ _
  addresses b hb := (haddresses b hb).imp_right fun hnext => Nat.le_of_eq hnext.symm
  read_eq b hb _ := by rw [hmemory, Memory.read_copy_of_lt _ hb]

lemma save (h : w.Separate) : Evolves w w.save := of_copy h rfl h.nodup fun _ => .inl

lemma snapshot (h : w.Separate) : Evolves w w.snapshot := by
  have haddresses : w.snapshot.addresses = w.addresses ++ [w.memory.next] := rfl
  refine of_copy h rfl ?_ fun b hb => ?_
  · rw [haddresses, List.nodup_append_comm]
    exact List.nodup_cons.mpr ⟨h.next_notMem, h.nodup⟩
  · rwa [haddresses, List.mem_append, List.mem_singleton] at hb

lemma restore (h : w.Separate) (a : Address) : Evolves w (w.restore a) := by
  have haddresses : (w.restore a).addresses = w.memory.next :: w.initial :: w.snapshots := rfl
  have hkept : ∀ b ∈ w.initial :: w.snapshots, b ∈ w.addresses := fun _ => List.mem_cons_of_mem _
  refine of_copy h rfl ?_ fun b hb => ?_
  · rw [haddresses]
    exact List.nodup_cons.mpr ⟨fun hmem => h.next_notMem (hkept _ hmem), h.nodup.of_cons⟩
  · rw [haddresses, List.mem_cons] at hb
    exact hb.symm.imp_left (hkept b)

end Evolves

lemma evolves_runBlock_of_steps {steps : List Step}
    (hsteps : ∀ s ∈ steps, ∀ w : Workspace, w.Separate → Evolves w (s.run w).2)
    (h : w.Separate) : Evolves w (Step.runBlock steps w).workspace :=
  Step.runBlock_relates (R := fun w w' => w.Separate → Evolves w w') (fun _ => .refl)
    (fun h h' hw => (h hw).trans (h' (h hw).separate)) hsteps w h

/-- Every step, of whatever blocks it is made, leaves mappings alone that are not in use. -/
theorem evolves_run (s : Step) (w : Workspace) (h : w.Separate) : Evolves w (s.run w).2 := by
  induction s using Step.inductionOnBlocks generalizing w with
  | basic s hs =>
    cases s with
    | set x v => exact .assign h env_mem_addresses
    | get x =>
      simp only [Step.run]
      split <;> exact .refl h
    | contains x => exact .refl h
    | size => exact .refl h
    | debugText =>
      simp only [Step.run]
      split <;> exact .refl h
    | snapshot => exact .snapshot h
    | restore i =>
      simp only [Step.run]
      cases w.snapshots[i]? with
      | none => exact .refl h
      | some a => exact .restore h a
    | amendSnapshot i x v =>
      simp only [Step.run]
      cases ha : w.snapshots[i]? with
      | none => exact .refl h
      | some a => exact .assign h (mem_addresses_of_mem (List.mem_of_getElem? ha))
    | amendInitial x v => exact .assign h initial_mem_addresses
    | fail e => exact .refl h
    | transaction steps => exact absurd rfl (hs steps)
  | transaction steps ih =>
    have hblock : Evolves w (Step.runBlock steps w.save).workspace :=
      (Evolves.save h).trans (evolves_runBlock_of_steps ih (Evolves.save h).separate)
    simp only [Step.run]
    cases (Step.runBlock steps w.save).failure with
    | none => exact hblock
    | some e => exact hblock.trans (.restore hblock.separate _)

lemma separate_runAll (h : w.Separate) (steps : List Step) : (Step.runAll steps w).2.Separate := by
  induction steps generalizing w with
  | nil => exact h
  | cons s steps ih => exact ih (evolves_run s w h).separate

/-! ### What steps change -/

lemma Separate.env_ne_initial (h : w.Separate) : w.env ≠ w.initial := fun heq =>
  (List.nodup_cons.mp h.nodup).1 (heq ▸ List.mem_cons_self)

lemma Separate.env_notMem (h : w.Separate) : w.env ∉ w.snapshots := fun hmem =>
  (List.nodup_cons.mp h.nodup).1 (List.mem_cons_of_mem _ hmem)

lemma Separate.initial_notMem (h : w.Separate) : w.initial ∉ w.snapshots :=
  (List.nodup_cons.mp h.nodup.of_cons).1

/-- Where copies are made but the mappings are the same, what they hold is. -/
lemma map_read_copy (h : w.Separate) (a : Address) :
    w.snapshots.map (w.memory.copy a).read = w.snapshots.map w.memory.read :=
  List.map_congr_left fun b hb =>
    Memory.read_copy_of_lt _ (h.lt_next b (mem_addresses_of_mem hb))

lemma map_read_set (hne : a ∉ w.snapshots) :
    w.snapshots.map (w.memory.set a name value).read = w.snapshots.map w.memory.read :=
  List.map_congr_left fun _ hb => Memory.read_set_of_ne _ _ _ fun hab => hne (hab ▸ hb)

lemma contents_assign_env (h : w.Separate) : (w.assign w.env name value).contents =
    { w.contents with env := w.contents.env.set name value } := by
  have henv : (w.memory.set w.env name value).read w.env = w.current.set name value :=
    Memory.read_set_self _ _ _ (h.lt_next _ env_mem_addresses)
  have hinitial := w.memory.read_set_of_ne name value h.env_ne_initial
  simp only [contents, current, assign, map_read_set h.env_notMem, hinitial]
  rw [henv, current]

lemma contents_assign_initial (h : w.Separate) : (w.assign w.initial name value).contents =
    { w.contents with initial := w.contents.initial.set name value } := by
  have henv := w.memory.read_set_of_ne name value h.env_ne_initial.symm
  have hinitial := w.memory.read_set_self name value
    (h.lt_next _ initial_mem_addresses)
  simp only [contents, current, assign, map_read_set h.initial_notMem, henv, hinitial]

lemma contents_assign_snapshot (h : w.Separate) (ha : w.snapshots[i]? = some a) :
    (w.assign a name value).contents =
      { w.contents with snapshots := w.contents.snapshots.modify i (·.set name value) } := by
  have hmem := List.mem_of_getElem? ha
  have henv : (w.memory.set a name value).read w.env = w.memory.read w.env :=
    Memory.read_set_of_ne _ _ _ fun heq => h.env_notMem (heq ▸ hmem)
  have hinitial : (w.memory.set a name value).read w.initial = w.memory.read w.initial :=
    Memory.read_set_of_ne _ _ _ fun heq => h.initial_notMem (heq ▸ hmem)
  have hsnapshots : w.snapshots.map (w.memory.set a name value).read =
      (w.snapshots.map w.memory.read).modify i (·.set name value) := by
    apply List.ext_getElem?
    intro j
    rw [List.getElem?_map, List.getElem?_modify, List.getElem?_map]
    by_cases hij : i = j
    · subst hij
      have hread := w.memory.read_set_self name value
        (h.lt_next a (mem_addresses_of_mem hmem))
      simp [ha, hread]
    · cases hb : w.snapshots[j]? with
      | none => simp
      | some b =>
        have hne : a ≠ b := by
          rintro rfl
          exact hij (List.getElem?_inj (List.getElem?_eq_some_iff.mp ha).1
            h.nodup.of_cons.of_cons |>.mp (ha.trans hb.symm))
        simp [hij, w.memory.read_set_of_ne name value hne]
  simp only [contents, current, assign, henv, hinitial, hsnapshots]

lemma contents_save (h : w.Separate) : w.save.contents = w.contents := by
  have henv : (w.memory.copy w.env).read w.env = w.memory.read w.env :=
    Memory.read_copy_of_lt _ (h.lt_next _ env_mem_addresses)
  have hinitial : (w.memory.copy w.env).read w.initial = w.memory.read w.initial :=
    Memory.read_copy_of_lt _ (h.lt_next _ initial_mem_addresses)
  simp only [contents, current, save, henv, hinitial, map_read_copy h]

lemma contents_snapshot (h : w.Separate) : w.snapshot.contents =
    { w.contents with snapshots := w.contents.snapshots ++ [w.contents.env] } := by
  have hsnapshot : w.snapshot.contents =
      { w.save.contents with
        snapshots := w.save.contents.snapshots ++ [w.save.memory.read w.memory.next] } := by
    simp [contents, current, snapshot, save]
  have hread : w.save.memory.read w.memory.next = w.current := Memory.read_copy_next _
  rw [hsnapshot, hread, contents_save h, contents]

lemma contents_restore (h : w.Separate) (a : Address) :
    (w.restore a).contents = { w.contents with env := w.memory.read a } := by
  have hinitial : (w.memory.copy a).read w.initial = w.memory.read w.initial :=
    Memory.read_copy_of_lt _ (h.lt_next _ initial_mem_addresses)
  simp only [contents, current, restore, hinitial, map_read_copy h, Memory.read_copy_next]

lemma contents_run_restore (h : w.Separate) (i : Nat) : ((Step.restore i).run w).2.contents =
    { w.contents with env := w.contents.snapshots[i]?.getD w.contents.env } := by
  have hsnapshot : w.contents.snapshots[i]? = w.snapshots[i]?.map w.memory.read :=
    List.getElem?_map
  rw [hsnapshot, Step.run]
  cases w.snapshots[i]? with
  | none => rfl
  | some a => exact contents_restore h a

lemma contents_run_amendSnapshot (h : w.Separate) (i : Nat) (x : String) (n : Int) :
    ((Step.amendSnapshot i x n).run w).2.contents =
      { w.contents with snapshots := w.contents.snapshots.modify i (·.set x n) } := by
  rw [Step.run]
  cases ha : w.snapshots[i]? with
  | none =>
    have hmodify : w.contents.snapshots.modify i (·.set x n) = w.contents.snapshots :=
      List.modify_eq_self (by simpa [contents] using ha)
    rw [hmodify]
    rfl
  | some a => exact contents_assign_snapshot h ha

/-- The copy that a block begins with holds at its end what the environment held at its start. -/
lemma contents_rollback (h : w.Separate) (steps : List Step) :
    ((Step.runBlock steps w.save).workspace.restore w.memory.next).contents =
      { (Step.runBlock steps w.save).workspace.contents with env := w.contents.env } := by
  have hsave : Evolves w w.save := .save h
  have hblock : Evolves w.save (Step.runBlock steps w.save).workspace :=
    evolves_runBlock_of_steps (fun s _ w => evolves_run s w) hsave.separate
  have hmade : w.memory.next < w.save.memory.next := by
    rw [save, Memory.next_copy]
    exact Nat.lt_succ_self _
  -- the copy is in use by nobody while the block runs, so none of the steps can have changed it
  have hsaved : (Step.runBlock steps w.save).workspace.memory.read w.memory.next = w.current := by
    rw [hblock.read_eq _ hmade h.next_notMem]
    exact Memory.read_copy_next _
  rw [contents_restore hblock.separate, hsaved]
  rfl

/-! ### What steps depend on -/

/-- The workspaces hold the same, at whatever addresses. -/
structure Alike (w v : Workspace) : Prop where
  left : w.Separate
  right : v.Separate
  contents_eq : w.contents = v.contents

lemma Alike.current_eq (h : Alike w v) : w.current = v.current :=
  congrArg Contents.env h.contents_eq

lemma Alike.save (h : Alike w v) : Alike w.save v.save where
  left := (Evolves.save h.left).separate
  right := (Evolves.save h.right).separate
  contents_eq := by rw [contents_save h.left, contents_save h.right, h.contents_eq]

lemma alike_runBlock_of_steps {steps : List Step}
    (hsteps : ∀ s ∈ steps, ∀ w v : Workspace, Alike w v →
      (s.run w).1 = (s.run v).1 ∧ Alike (s.run w).2 (s.run v).2) (h : Alike w v) :
    (Step.runBlock steps w).answers = (Step.runBlock steps v).answers ∧
      (Step.runBlock steps w).failure = (Step.runBlock steps v).failure ∧
      Alike (Step.runBlock steps w).workspace (Step.runBlock steps v).workspace := by
  induction steps generalizing w v with
  | nil => exact ⟨rfl, rfl, h⟩
  | cons s steps ih =>
    obtain ⟨hs, hsteps⟩ := List.forall_mem_cons.mp hsteps
    obtain ⟨hanswer, hafter⟩ := hs w v h
    simp only [Step.runBlock]
    rcases hw : s.run w with ⟨answer, w'⟩
    rcases hv : s.run v with ⟨answer', v'⟩
    rw [hw, hv] at hanswer hafter
    obtain rfl : answer = answer' := hanswer
    cases answer with
    | error e => exact ⟨rfl, rfl, hafter⟩
    | ok answer =>
      obtain ⟨hanswers, hfailure, hend⟩ := ih hsteps hafter
      exact ⟨by simp only [hanswers, hafter.current_eq], hfailure, hend⟩

/-- What a step answers and what the workspace holds after it depend on what the workspace held
before it. -/
theorem alike_run (s : Step) (w v : Workspace) (h : Alike w v) :
    (s.run w).1 = (s.run v).1 ∧ Alike (s.run w).2 (s.run v).2 := by
  induction s using Step.inductionOnBlocks generalizing w v with
  | basic s hs =>
    have hleft := (evolves_run s w h.left).separate
    have hright := (evolves_run s v h.right).separate
    cases s with
    | set x n =>
      refine ⟨rfl, hleft, hright, ?_⟩
      simp only [Step.run]
      rw [contents_assign_env h.left, contents_assign_env h.right, h.contents_eq]
    | get x =>
      simp only [Step.run, h.current_eq]
      split <;> exact ⟨rfl, h⟩
    | contains x => exact ⟨by simp only [Step.run, h.current_eq], h⟩
    | size => exact ⟨by simp only [Step.run, h.current_eq], h⟩
    | debugText =>
      simp only [Step.run, h.current_eq]
      split <;> exact ⟨rfl, h⟩
    | snapshot =>
      refine ⟨by simp only [Step.run, h.current_eq], hleft, hright, ?_⟩
      simp only [Step.run]
      rw [contents_snapshot h.left, contents_snapshot h.right, h.contents_eq]
    | restore i =>
      refine ⟨rfl, hleft, hright, ?_⟩
      rw [contents_run_restore h.left, contents_run_restore h.right, h.contents_eq]
    | amendSnapshot i x n =>
      refine ⟨rfl, hleft, hright, ?_⟩
      rw [contents_run_amendSnapshot h.left, contents_run_amendSnapshot h.right, h.contents_eq]
    | amendInitial x n =>
      refine ⟨rfl, hleft, hright, ?_⟩
      simp only [Step.run]
      rw [contents_assign_initial h.left, contents_assign_initial h.right, h.contents_eq]
    | fail e => exact ⟨rfl, h⟩
    | transaction steps => exact absurd rfl (hs steps)
  | transaction steps ih =>
    obtain ⟨hanswers, hfailure, hblock⟩ := alike_runBlock_of_steps ih h.save
    simp only [Step.run, hfailure]
    cases (Step.runBlock steps v.save).failure with
    | none => exact ⟨by rw [hanswers], hblock⟩
    | some e =>
      refine ⟨by rw [hanswers], (Evolves.restore hblock.left _).separate,
        (Evolves.restore hblock.right _).separate, ?_⟩
      rw [contents_rollback h.left, contents_rollback h.right, hblock.contents_eq, h.contents_eq]

end Workspace

/-! ### Blocks and the steps in them -/

namespace Step

variable {s : Step} {steps : List Step} {w : Workspace} {e : EvalError}
  {done : List (Answer × List (String × Int))}

/-- An answer in a block as it is given outside of blocks. -/
def answered (a : Answer × List (String × Int)) : Except EvalError Answer × List (String × Int) :=
  (.ok a.1, a.2)

theorem run_eq_of_error (h : (s.run w).1 = .error e) : (s.run w).2 = w := by
  cases s with
  | get x =>
    simp only [run] at h ⊢
    split <;> rfl
  | debugText =>
    simp only [run] at h ⊢
    split <;> rfl
  | transaction steps =>
    simp only [run] at h
    split at h <;> cases h
  | fail e => rfl
  | _ => cases h

/-- Steps that do not fail are made in a block as they are made without it. -/
lemma runBlock_of_answered (h : (runAll steps w).1 = done.map answered) :
    runBlock steps w = ⟨done, none, (runAll steps w).2⟩ := by
  induction steps generalizing w done with
  | nil =>
    obtain rfl : done = [] := List.map_eq_nil_iff.mp h.symm
    rfl
  | cons s steps ih =>
    obtain _ | ⟨⟨answer, shown⟩, done⟩ := done
    · cases h
    · simp only [runAll, List.map_cons, answered] at h ⊢
      obtain ⟨hfirst, hrest⟩ := List.cons_eq_cons.mp h
      rcases hrun : s.run w with ⟨outcome, w'⟩
      simp only [hrun, Prod.mk.injEq] at hfirst hrest
      obtain ⟨rfl, rfl⟩ := hfirst
      simp only [runBlock, hrun, ih hrest]

/-- A block ends with the first failure that the steps have without it. -/
lemma runBlock_of_failed {shown : List (String × Int)}
    {rest : List (Except EvalError Answer × List (String × Int))}
    (h : (runAll steps w).1 = done.map answered ++ (.error e, shown) :: rest) :
    runBlock steps w = ⟨done, some e, (runAll (steps.take done.length) w).2⟩ := by
  induction steps generalizing w done with
  | nil => simp [runAll] at h
  | cons s steps ih =>
    obtain _ | ⟨⟨answer, shown'⟩, done⟩ := done
    · simp only [runAll, List.map_nil, List.nil_append] at h
      obtain ⟨hfirst, -⟩ := List.cons_eq_cons.mp h
      -- the step that ends the block has changed nothing, so only those before it count
      have herror : (s.run w).1 = .error e := (Prod.mk.inj hfirst).1
      have hkept := run_eq_of_error herror
      rcases hrun : s.run w with ⟨outcome, w'⟩
      rw [hrun] at herror hkept
      obtain rfl : outcome = .error e := herror
      obtain rfl : w' = w := hkept
      simp only [runBlock, hrun]
      rfl
    · simp only [runAll, List.map_cons, answered, List.cons_append] at h
      obtain ⟨hfirst, hrest⟩ := List.cons_eq_cons.mp h
      rcases hrun : s.run w with ⟨outcome, w'⟩
      simp only [hrun, Prod.mk.injEq] at hfirst hrest
      obtain ⟨rfl, rfl⟩ := hfirst
      simp only [runBlock, hrun, ih hrest, List.length_cons, List.take_succ_cons, runAll]

/-- The caller changes a mapping of its own, in the step or in a step of the block. -/
inductive Amends : Step → Prop where
  | snapshot (i : Nat) (x : String) (n : Int) : Amends (.amendSnapshot i x n)
  | initial (x : String) (n : Int) : Amends (.amendInitial x n)
  | transaction {steps : List Step} {s : Step} (hs : s ∈ steps) (h : Amends s) :
      Amends (.transaction steps)

end Step

namespace Workspace

variable {w w' w'' : Workspace}

/-- The mapping that the environment was made from has not changed, nor have the snapshots, though
others may have been taken. -/
structure Keeps (w w' : Workspace) : Prop where
  initial_eq : w'.contents.initial = w.contents.initial
  snapshots_prefix : w.contents.snapshots <+: w'.contents.snapshots

namespace Keeps

lemma refl (w : Workspace) : Keeps w w := ⟨rfl, List.prefix_rfl⟩

lemma trans (h : Keeps w w') (h' : Keeps w' w'') : Keeps w w'' :=
  ⟨h'.initial_eq.trans h.initial_eq, h.snapshots_prefix.trans h'.snapshots_prefix⟩

lemma of_contents (hinitial : w'.contents.initial = w.contents.initial)
    (hsnapshots : w'.contents.snapshots = w.contents.snapshots) : Keeps w w' :=
  ⟨hinitial, hsnapshots ▸ List.prefix_rfl⟩

lemma save (h : w.Separate) : Keeps w w.save :=
  of_contents (by rw [contents_save h]) (by rw [contents_save h])

end Keeps

/-- Steps in which the caller changes nothing change no snapshot and not the mapping that the
environment was made from. -/
theorem keeps_run (s : Step) (w : Workspace) (h : w.Separate) (hs : ¬ s.Amends) :
    Keeps w (s.run w).2 := by
  induction s using Step.inductionOnBlocks generalizing w with
  | basic s hbasic =>
    cases s with
    | set x n =>
      have hafter : ((Step.set x n).run w).2.contents = _ := contents_assign_env h
      exact .of_contents (by rw [hafter]) (by rw [hafter])
    | snapshot =>
      have hafter : (Step.snapshot.run w).2.contents = _ := contents_snapshot h
      refine ⟨by rw [hafter], ?_⟩
      rw [hafter]
      exact List.prefix_append ..
    | restore i =>
      have hafter := contents_run_restore h i
      exact .of_contents (by rw [hafter]) (by rw [hafter])
    | amendSnapshot i x n => exact absurd (.snapshot i x n) hs
    | amendInitial x n => exact absurd (.initial x n) hs
    | get _ | debugText =>
      simp only [Step.run]
      split <;> exact .refl w
    | contains _ | size | fail _ => exact .refl w
    | transaction steps => exact absurd rfl (hbasic steps)
  | transaction steps ih =>
    have hblock : Keeps w (Step.runBlock steps w.save).workspace := by
      refine (Keeps.save h).trans (Step.runBlock_relates
        (R := fun w w' => w.Separate → w'.Separate ∧ Keeps w w') (fun w h => ⟨h, .refl w⟩) ?_ ?_
        w.save (Evolves.save h).separate).2
      · intro w w' w'' h h' hw
        obtain ⟨hw', hkeeps⟩ := h hw
        obtain ⟨hw'', hkeeps'⟩ := h' hw'
        exact ⟨hw'', hkeeps.trans hkeeps'⟩
      · intro s hmem w h
        exact ⟨(evolves_run s w h).separate, ih s hmem w h fun hs' => hs (.transaction hmem hs')⟩
    simp only [Step.run]
    cases (Step.runBlock steps w.save).failure with
    | none => exact hblock
    | some e =>
      have hafter := contents_rollback h steps
      exact hblock.trans (.of_contents (by rw [hafter]) (by rw [hafter]))

/-- The workspaces in which a program that starts with the entries can make a step: those after
earlier steps, and those at the start of a block. -/
inductive Reachable (entries : List (String × Int)) : Workspace → Prop where
  | start : Reachable entries (.ofEntries entries)
  | step {w : Workspace} (s : Step) (h : Reachable entries w) : Reachable entries (s.run w).2
  | block {w : Workspace} (h : Reachable entries w) : Reachable entries w.save

lemma Reachable.separate {entries : List (String × Int)} (h : Reachable entries w) :
    w.Separate := by
  induction h with
  | start => exact separate_ofEntries entries
  | step s _ ih => exact (evolves_run s _ ih).separate
  | block _ ih => exact (Evolves.save ih).separate

/-- Transactions nest. Wherever in a program a block stands: if none of its steps fails, it does
what the steps do without it; if one fails, the steps up to there have been made but the environment
is what it was at the start of the block. An undefined variable is a failure. Snapshots, and the
mapping that the environment was made from, change only if the caller changes them, and then the
environment does not. -/
theorem transactions_nest {entries : List (String × Int)} (h : Reachable entries w)
    (steps : List Step) :
    let plain := Step.runAll steps w
    let block := (Step.transaction steps).run w
    (∀ done, plain.1 = done.map Step.answered →
      block.1 = .ok (.block done none) ∧ block.2.contents = plain.2.contents) ∧
    (∀ done e shown rest, plain.1 = done.map Step.answered ++ (.error e, shown) :: rest →
      block.1 = .ok (.block done (some e)) ∧ block.2.current = w.current ∧
        block.2.contents = { (Step.runAll (steps.take done.length) w).2.contents with
          env := w.current }) ∧
    (∀ x, ((Step.get x).run w).1 = .error (.undefinedVariable x) ↔ w.current.get? x = none) ∧
    (∀ s : Step, ¬ s.Amends → Keeps w (s.run w).2) ∧
    (∀ i x n, ((Step.amendSnapshot i x n).run w).2.contents =
      { w.contents with snapshots := w.contents.snapshots.modify i (·.set x n) }) ∧
    ∀ x n, ((Step.amendInitial x n).run w).2.contents =
      { w.contents with initial := w.contents.initial.set x n } := by
  have hw : w.Separate := h.separate
  have halike : Alike w.save w := ⟨(Evolves.save hw).separate, hw, contents_save hw⟩
  obtain ⟨hanswers, hfailure, hend⟩ :=
    alike_runBlock_of_steps (fun s (_ : s ∈ steps) => alike_run s) halike
  refine ⟨fun done hdone => ?_, fun done e shown rest hfailed => ?_, fun x => ?_,
    fun s hs => keeps_run s w hw hs, contents_run_amendSnapshot hw, fun x n => ?_⟩
  · rw [Step.runBlock_of_answered hdone] at hanswers hfailure hend
    simp only [Step.run, hanswers, hfailure]
    exact ⟨trivial, hend.contents_eq⟩
  · rw [Step.runBlock_of_failed hfailed] at hanswers hfailure hend
    have hrollback := contents_rollback hw steps
    rw [hend.contents_eq] at hrollback
    simp only [Step.run, hanswers, hfailure]
    exact ⟨trivial, congrArg Contents.env hrollback, hrollback⟩
  · simp only [Step.run]
    cases w.current.get? x <;> simp
  · exact contents_assign_initial hw

/-- The block stands in another one and begins with blocks itself, one that fails and one that does
not. Then a snapshot from before both is restored, and the last variable is not in it. -/
theorem transactions_nest_rollback :
    let before := (Step.snapshot.run (.ofEntries [("b", 1), ("a", 2)])).2
    let w := ((Step.set "c" 3).run before.save).2
    let inner : List Step := [.transaction [.set "d" 4, .fail (.arithmetic (.divisionByZero 5))],
      .transaction [.set "a" 6], .restore 0]
    let steps := inner ++ [.get "c", .set "b" 7]
    (Reachable [("b", 1), ("a", 2)] w ∧
      ∃ (done : List _) (shown : _) (rest : List _), (Step.runAll steps w).1 =
        done.map Step.answered ++ (.error (.undefinedVariable "c"), shown) :: rest) ∧
      ((Step.transaction steps).run w).2.current.entries = [("b", 1), ("a", 2), ("c", 3)] ∧
      ((Step.transaction inner).run w).2.current.entries = [("b", 1), ("a", 2)] := by
  intro before w inner steps
  have hw : Reachable [("b", 1), ("a", 2)] w := .step _ (.block (.step _ .start))
  have hplain : ∃ done : List _, (Step.runAll inner w).1 = done.map Step.answered :=
    ⟨[(_, _), (_, _), (_, _)], rfl⟩
  have hfailed : ∃ (done : List _) (shown : _) (rest : List _), (Step.runAll steps w).1 =
      done.map Step.answered ++ (.error (.undefinedVariable "c"), shown) :: rest :=
    ⟨[(_, _), (_, _), (_, _)], _, _, rfl⟩
  refine ⟨⟨hw, hfailed⟩, ?_, ?_⟩
  · obtain ⟨done, shown, rest, hfailed⟩ := hfailed
    rw [((transactions_nest hw steps).2.1 done _ shown rest hfailed).2.1]
    rfl
  · obtain ⟨done, hplain⟩ := hplain
    have hcontents := ((transactions_nest hw inner).1 done hplain).2
    have hcurrent := congrArg Contents.env hcontents
    exact congrArg Environment.entries hcurrent

end Workspace

end Calculator.Environment
