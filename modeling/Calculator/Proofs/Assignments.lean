import Calculator.Environment
import Mathlib.Data.List.Basic
import Mathlib.Tactic.Common

/-!
# Lists of assignments

What a list of assignments leaves in an environment: every variable that it assigns to has the value
that was assigned last, and the variables that are new stand behind the old ones, in the order of
their first assignment.
-/

namespace Calculator

lemma Entries.put_of_notMem {name : String} {entries : List (String × Int)}
    (h : name ∉ entries.map Prod.fst) (value : Int) :
    put name value entries = entries ++ [(name, value)] := by
  induction entries with
  | nil => rfl
  | cons e rest ih =>
    obtain ⟨hne, hrest⟩ := not_or.mp (mt List.mem_cons.mpr h)
    rw [put, if_neg (Ne.symm hne), ih hrest, List.cons_append]

lemma Entries.mem_put {α : Type} {name : String} {value : α} {entries : List (String × α)}
    {e : String × α} (h : e ∈ put name value entries) : e = (name, value) ∨ e ∈ entries := by
  induction entries with
  | nil => exact .inl (List.mem_singleton.mp h)
  | cons other entries ih =>
    rw [put] at h
    split at h
    · next hname =>
      rcases List.mem_cons.mp h with rfl | h
      · exact .inl (by rw [hname])
      · exact .inr (List.mem_cons_of_mem _ h)
    · rcases List.mem_cons.mp h with rfl | h
      · exact .inr List.mem_cons_self
      · exact (ih h).imp_right (List.mem_cons_of_mem _)

lemma Entries.lookup_eq_none_iff {α : Type} {name : String} {entries : List (String × α)} :
    entries.lookup name = none ↔ name ∉ entries.map Prod.fst := by
  rw [List.lookup_eq_none_iff, List.mem_map]
  constructor
  · rintro h ⟨e, he, rfl⟩
    exact bne_iff_ne.mp (h e he) rfl
  · exact fun h e he => bne_iff_ne.mpr fun heq => h ⟨e, he, heq.symm⟩

namespace Environment

variable {ws : List (String × Int)} {x : String}

/-- The value that a variable is assigned last, if it is assigned at all. -/
def lastValue? (ws : List (String × Int)) (x : String) : Option Int := ws.reverse.lookup x

lemma lastValue?_cons (w : String × Int) (ws : List (String × Int)) (x : String) :
    lastValue? (w :: ws) x = (lastValue? ws x).or (if x = w.1 then some w.2 else none) := by
  obtain ⟨name, value⟩ := w
  rw [lastValue?, List.reverse_cons, List.lookup_append, Entries.lookup_cons, List.lookup_nil,
    lastValue?]

lemma lastValue?_eq_none_iff : lastValue? ws x = none ↔ x ∉ ws.map Prod.fst := by
  rw [lastValue?, Entries.lookup_eq_none_iff, List.map_reverse, List.mem_reverse]

lemma get?_eq_none_iff {env : Environment} : env.get? x = none ↔ x ∉ env.names :=
  Entries.lookup_eq_none_iff

theorem get?_commit (env : Environment) (ws : List (String × Int)) (x : String) :
    (env.commit ws).get? x = (lastValue? ws x).or (env.get? x) := by
  induction ws generalizing env with
  | nil => rfl
  | cons w ws ih =>
    rw [commit_cons, ih, get?_set, lastValue?_cons, Option.or_assoc]
    split
    · rfl
    · rfl

lemma get?_commit_of_notMem (env : Environment) (h : x ∉ ws.map Prod.fst) :
    (env.commit ws).get? x = env.get? x := by
  rw [get?_commit, lastValue?_eq_none_iff.mpr h, Option.none_or]

lemma exists_lastValue?_of_mem (h : x ∈ ws.map Prod.fst) : ∃ v, lastValue? ws x = some v := by
  rw [← Option.ne_none_iff_exists']
  exact fun hnone => lastValue?_eq_none_iff.mp hnone h

/-- Variables that are assigned the same value all have it, in whatever order they come. -/
lemma get?_commit_of_mem (env : Environment) {names : List String} (hx : x ∈ names) (v : Int) :
    (env.commit (names.map (·, v))).get? x = some v := by
  induction names generalizing env with
  | nil => cases hx
  | cons y names ih =>
    rw [List.map_cons, commit_cons]
    by_cases hmem : x ∈ names
    · exact ih (env.set y v) hmem
    · obtain rfl := (List.mem_cons.mp hx).resolve_right hmem
      rw [get?_commit_of_notMem _ (by simpa using hmem), get?_set, if_pos rfl]

/-- The new variables among the assigned ones, in the order of their first assignment. -/
def newNames (env : Environment) (names : List String) : List String :=
  (names.filter (· ∉ env.names)).eraseDups

lemma mem_newNames_iff {env : Environment} {names : List String} :
    x ∈ env.newNames names ↔ x ∈ names ∧ x ∉ env.names := by
  simp [newNames, List.mem_eraseDups]

/-- Behind the assignment to a variable, new ones are new with respect to it too. -/
lemma newNames_cons (env : Environment) (x : String) (v : Int) (names : List String) :
    env.newNames (x :: names) =
      if x ∈ env.names then (env.set x v).newNames names
      else x :: (env.set x v).newNames names := by
  by_cases hx : x ∈ env.names
  · simp [newNames, names_set, hx]
  · have hfilter : (names.filter (· ∉ env.names)).filter (fun y => !y == x) =
        names.filter (· ∉ env.names ++ [x]) := by
      rw [List.filter_filter]
      refine List.filter_congr fun y _ => ?_
      by_cases hy : y = x <;> simp [hy]
    rw [if_neg hx, newNames, List.filter_cons_of_pos (by simpa using hx), List.eraseDups_cons,
      hfilter, newNames, names_set, if_neg hx]

theorem names_commit (env : Environment) (ws : List (String × Int)) :
    (env.commit ws).names = env.names ++ env.newNames (ws.map Prod.fst) := by
  induction ws generalizing env with
  | nil => simp [newNames]
  | cons w ws ih =>
    rw [commit_cons, ih, names_set, List.map_cons, newNames_cons env w.1 w.2]
    split
    · rfl
    · rw [List.append_assoc, List.singleton_append]

/-! ### Environments from lists -/

lemma entries_set_of_notMem {env : Environment} (h : x ∉ env.names) (v : Int) :
    (env.set x v).entries = env.entries ++ [(x, v)] :=
  Entries.put_of_notMem h v

/-- Variables that are new and assigned to once stand behind the old ones as they are listed. -/
theorem entries_commit_of_nodup (env : Environment) (ws : List (String × Int))
    (h : (env.names ++ ws.map Prod.fst).Nodup) : (env.commit ws).entries = env.entries ++ ws := by
  induction ws generalizing env with
  | nil => simp
  | cons w ws ih =>
    have hw : w.1 ∉ env.names := fun hmem =>
      (List.nodup_append.mp h).2.2 _ hmem _ List.mem_cons_self rfl
    have hnames : (env.set w.1 w.2).names = env.names ++ [w.1] := by rw [names_set, if_neg hw]
    have hrest : ((env.set w.1 w.2).names ++ ws.map Prod.fst).Nodup := by
      simpa [hnames] using h
    rw [commit_cons, ih _ hrest, entries_set_of_notMem hw, List.append_assoc]
    rfl

lemma ofEntries_entries (env : Environment) : ofEntries env.entries = env :=
  Environment.ext (entries_commit_of_nodup empty env.entries env.distinct)

/-- The variables are listed as their names are, each with the value that it has. -/
lemma entries_eq_filterMap (env : Environment) :
    env.entries = env.names.filterMap fun x => (env.get? x).map (x, ·) := by
  obtain ⟨entries, hdistinct⟩ := env
  simp only [names, get?]
  induction entries with
  | nil => rfl
  | cons e rest ih =>
    obtain ⟨name, value⟩ := e
    obtain ⟨hnew, hdistinct⟩ := List.nodup_cons.mp hdistinct
    have hsame : ∀ x ∈ rest.map Prod.fst,
        (((name, value) :: rest).lookup x).map (x, ·) = (rest.lookup x).map (x, ·) := by
      intro x hx
      rw [Entries.lookup_cons, if_neg (ne_of_mem_of_not_mem hx hnew)]
    rw [List.map_cons, List.filterMap_cons, Entries.lookup_cons, if_pos rfl,
      List.filterMap_congr hsame, ← ih hdistinct]
    rfl

lemma sorted_perm (env : Environment) : env.sorted.Perm env.entries := List.mergeSort_perm _ _

lemma nodup_sorted (env : Environment) : (env.sorted.map Prod.fst).Nodup :=
  ((sorted_perm env).map Prod.fst).nodup_iff.mpr env.distinct

lemma pairwise_sorted (env : Environment) :
    env.sorted.Pairwise fun a b => decide (a.1 ≤ b.1) = true := by
  refine List.pairwise_mergeSort (fun a b c hab hbc => ?_) (fun a b => ?_) env.entries
  · simp only [decide_eq_true_eq] at hab hbc ⊢
    exact String.le_trans hab hbc
  · simpa using String.le_total a.1 b.1

/-- As no variable is listed twice, each one stands before those that are greater. -/
lemma pairwise_lt_sorted (env : Environment) : env.sorted.Pairwise fun a b => a.1 < b.1 := by
  refine (pairwise_sorted env).imp₂ (fun a b hle hne => ?_) (List.pairwise_map.mp env.nodup_sorted)
  exact String.not_le.mp fun hge => hne (String.le_antisymm (of_decide_eq_true hle) hge)

/-- Assigning to the variables in sorted order gives an environment with the same sorted list. -/
theorem sorted_ofEntries_sorted (env : Environment) :
    (ofEntries env.sorted).sorted = env.sorted := by
  have hentries : (ofEntries env.sorted).entries = env.sorted :=
    entries_commit_of_nodup empty env.sorted (nodup_sorted env)
  rw [sorted, hentries]
  exact List.mergeSort_of_pairwise (pairwise_sorted env)

end Environment

end Calculator
