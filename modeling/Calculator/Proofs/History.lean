import Calculator.Proofs.Assignments
import Calculator.Proofs.Transactions

/-!
# Histories of an environment

Whatever has happened to an environment, it is an ordered mapping. What it holds can be told from
the snapshot that was restored last, or else from the variables at the start, and from what has been
assigned since then: the last assignment to a variable gives its value, and the first one the place
behind the variables that were restored.
-/

namespace Calculator.Environment

open Text

/-! ### Histories -/

/-- What has happened to an environment. Snapshots are restored by their number. -/
inductive History where
  | start
  | set (past : History) (name : String) (value : Int)
  | snapshot (past : History)
  | restore (past : History) (index : Nat)

namespace History

/-- What had happened before each snapshot, in the order of the snapshots. -/
def taken : History → List History
  | start => []
  | set past _ _ | restore past _ => taken past
  | snapshot past => taken past ++ [past]

/-- What had happened before the snapshot that was restored last. Restoring a snapshot that has not
been taken changes nothing, as if what is there were restored. -/
def restored? : History → Option History
  | start => none
  | set past _ _ | snapshot past => restored? past
  | restore past index => some ((taken past)[index]?.getD past)

/-- The assignments since a snapshot was restored last, in order. -/
def assigned : History → List (String × Int)
  | start | restore _ _ => []
  | set past name value => assigned past ++ [(name, value)]
  | snapshot past => assigned past

/-- The history as steps of a program. -/
def steps : History → List Step
  | start => []
  | set past name value => steps past ++ [.set name value]
  | snapshot past => steps past ++ [.snapshot]
  | restore past index => steps past ++ [.restore index]

/-- The workspace after the history, for an environment that was made from the given one. -/
def workspace (initial : Environment) (h : History) : Workspace :=
  (Step.runAll h.steps (.ofEntries initial.entries)).2

/-- The variables that were restored last, or else those at the start. -/
def base (initial : Environment) (h : History) : Environment :=
  match h.restored? with
  | some past => (past.workspace initial).current
  | none => initial

end History

/-! ### Steps one by one -/

lemma Workspace.contents_ofEntries (initial : Environment) :
    (Workspace.ofEntries initial.entries).contents = ⟨initial, initial, []⟩ := by
  have hcontents : (Workspace.ofEntries initial.entries).contents =
      ⟨.ofEntries initial.entries, .ofEntries initial.entries, []⟩ := rfl
  rw [hcontents, ofEntries_entries]

namespace History

variable {initial : Environment} {past h : History} {name : String} {value : Int} {index : Nat}

lemma workspace_set : (past.set name value).workspace initial =
    ((Step.set name value).run (past.workspace initial)).2 := Step.runAll_append _ _ _

lemma workspace_snapshot :
    past.snapshot.workspace initial = (Step.snapshot.run (past.workspace initial)).2 :=
  Step.runAll_append _ _ _

lemma workspace_restore : (past.restore index).workspace initial =
    ((Step.restore index).run (past.workspace initial)).2 := Step.runAll_append _ _ _

lemma separate_workspace (initial : Environment) (h : History) :
    (h.workspace initial).Separate := by
  induction h with
  | start => exact Workspace.separate_ofEntries initial.entries
  | set past name value ih => exact workspace_set ▸ (Workspace.evolves_run _ _ ih).separate
  | snapshot past ih => exact workspace_snapshot ▸ (Workspace.evolves_run _ _ ih).separate
  | restore past index ih => exact workspace_restore ▸ (Workspace.evolves_run _ _ ih).separate

/-- After a history, the environment holds what was restored last and assigned since then, and the
snapshots hold what the environment held when they were taken. -/
theorem contents_workspace (initial : Environment) (h : History) :
    (h.workspace initial).contents =
      ⟨(h.base initial).commit h.assigned, initial,
        h.taken.map fun past => (past.workspace initial).current⟩ := by
  induction h with
  | start => exact Workspace.contents_ofEntries initial
  | set past name value ih =>
    rw [workspace_set, Step.run,
      Workspace.contents_assign_env (separate_workspace initial past), ih, assigned, commit_append]
    rfl
  | snapshot past ih =>
    rw [workspace_snapshot, Step.run,
      Workspace.contents_snapshot (separate_workspace initial past), Workspace.env_contents, ih,
      taken, List.map_append]
    rfl
  | restore past index ih =>
    rw [workspace_restore,
      Workspace.contents_run_restore (separate_workspace initial past), Workspace.env_contents, ih]
    simp only [assigned, commit_nil, taken, base, restored?, List.getElem?_map]
    cases (taken past)[index]? <;> rfl

lemma current_workspace (initial : Environment) (h : History) :
    (h.workspace initial).current = (h.base initial).commit h.assigned :=
  congrArg Workspace.Contents.env (contents_workspace initial h)

/-! ### The environment as an ordered mapping -/

/-- The value of a variable: the one that it was assigned last, or else the one restored. -/
def value? (initial : Environment) (h : History) (x : String) : Option Int :=
  (lastValue? h.assigned x).or ((h.base initial).get? x)

/-- The variables in order: those that were restored, and behind them those that are new, by their
first assignment. -/
def order (initial : Environment) (h : History) : List String :=
  (h.base initial).names ++ (h.base initial).newNames (h.assigned.map Prod.fst)

/-- The variables in order, with their values. -/
def listed (initial : Environment) (h : History) : List (String × Int) :=
  (h.order initial).filterMap fun x => (h.value? initial x).map (x, ·)

/-- Whatever has happened to an environment that was made from given variables, it is a mapping in
order. A variable has the value that it was assigned last since a snapshot was restored, or else the
one that it had then, and it is undefined if it has neither. No variable is listed twice. Those that
were restored keep their places, and those that were assigned to since then stand behind them, by
their first assignment. The sorted list holds the same variables, by the code points of their names.
-/
theorem ordered_mapping (initial : Environment) (h : History) :
    let w := h.workspace initial
    let listed := h.listed initial
    (∀ x, ((Step.get x).run w).1 = match h.value? initial x with
      | some v => .ok (.value v)
      | none => .error (.undefinedVariable x)) ∧
    (∀ x, h.value? initial x = none ↔
      x ∉ h.assigned.map Prod.fst ∧ x ∉ (h.base initial).names) ∧
    (h.order initial).Nodup ∧
    (∀ x, x ∈ h.order initial ↔ h.value? initial x ≠ none) ∧
    listed.map Prod.fst = h.order initial ∧
    (Step.size.run w).1 = .ok (.count (h.order initial).length) ∧
    (Step.debugText.run w).1 =
      (if listed.all fun e => Decimal.fitsMessage e.2 then
        let shown := listed.map fun e => quoted e.1 ++ ": " ++ Decimal.ofInt e.2
        .ok (.text ("Environment(\x7b" ++ ", ".intercalate shown ++ "\x7d)"))
      else .error (.arithmetic .numeralTooLong)) ∧
    ∃ items, (Step.snapshot.run w).1 = .ok (.entries items) ∧ items.Perm listed ∧
      items.Pairwise fun a b => a.1 < b.1 := by
  intro w listed
  have hcurrent : w.current = (h.base initial).commit h.assigned := current_workspace initial h
  have hget (x : String) : w.current.get? x = h.value? initial x := by
    rw [hcurrent, get?_commit, value?]
  have hnames : w.current.names = h.order initial := by rw [hcurrent, names_commit, order]
  have hentries : w.current.entries = listed := by
    rw [entries_eq_filterMap, hnames]
    simp only [hget]
    rfl
  have hunbound (x : String) : h.value? initial x = none ↔
      x ∉ h.assigned.map Prod.fst ∧ x ∉ (h.base initial).names := by
    rw [value?, Option.or_eq_none_iff, lastValue?_eq_none_iff, get?_eq_none_iff]
  refine ⟨fun x => ?_, hunbound, hnames ▸ w.current.distinct, fun x => ?_, ?_, ?_, ?_,
    w.current.sorted, rfl, hentries ▸ sorted_perm _, pairwise_lt_sorted _⟩
  · rw [Step.run, hget]
    cases h.value? initial x <;> rfl
  · rw [ne_eq, hunbound, order, List.mem_append, mem_newNames_iff]
    tauto
  · rw [← hentries, ← hnames, names]
  · rw [Step.run, size, ← hnames, names, List.length_map]
  · rw [Step.run, debugText?, hentries]
    cases hfits : listed.all fun e => Decimal.fitsMessage e.2 <;> simp

/-- A variable keeps its place when it is assigned again, and loses it when it is assigned for the
first time after the snapshot that is restored. -/
example :
    let initial : Environment := ⟨[("b", 1), ("a", 2)], by decide⟩
    let saved := (start.set "d" 3).snapshot
    let h := (((saved.set "c" 4).restore 0).set "e" 5).set "c" 6 |>.set "b" 7
    h.listed initial = [("b", 7), ("a", 2), ("d", 3), ("e", 5), ("c", 6)] := by
  decide

end History

end Calculator.Environment
