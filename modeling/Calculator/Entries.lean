/-!
# Lists of entries

Names with values, in the order in which the names were first given one. Giving a name another value
keeps its place.
-/

namespace Calculator.Entries

variable {α : Type}

/-- Gives a name a value: in its place if it has one, else at the end. -/
def put (name : String) (value : α) : List (String × α) → List (String × α)
  | [] => [(name, value)]
  | (n, v) :: rest => if n = name then (n, value) :: rest else (n, v) :: put name value rest

theorem map_fst_put (name : String) (value : α) (entries : List (String × α)) :
    (put name value entries).map Prod.fst =
      if name ∈ entries.map Prod.fst then entries.map Prod.fst
      else entries.map Prod.fst ++ [name] := by
  induction entries with
  | nil => simp [put]
  | cons e rest ih =>
    obtain ⟨n, v⟩ := e
    by_cases h : n = name
    · simp [put, h]
    · have h' : ¬ name = n := fun h₁ => h h₁.symm
      by_cases hm : name ∈ rest.map Prod.fst
      · rw [if_pos hm] at ih
        simp only [put, if_neg h, List.map_cons, List.mem_cons, hm, or_true, if_true, ih]
      · rw [if_neg hm] at ih
        simp only [put, if_neg h, List.map_cons, List.mem_cons, hm, h', or_false, if_false, ih,
          List.cons_append]

theorem nodup_put {name : String} {value : α} {entries : List (String × α)}
    (h : (entries.map Prod.fst).Nodup) : ((put name value entries).map Prod.fst).Nodup := by
  rw [map_fst_put]
  split
  · exact h
  · next hm =>
    rw [List.nodup_append]
    refine ⟨h, by simp, ?_⟩
    intro a ha b hb hab
    simp only [List.mem_singleton] at hb
    exact hm (hb ▸ hab ▸ ha)

theorem lookup_cons (other name : String) (value : α) (rest : List (String × α)) :
    ((name, value) :: rest).lookup other =
      if other = name then some value else rest.lookup other := by
  by_cases h : other = name
  · simp [h]
  · have hb : (other == name) = false := by simp [h]
    simp only [List.lookup_cons, hb, if_neg h]

theorem lookup_put (name other : String) (value : α) (entries : List (String × α)) :
    (put name value entries).lookup other =
      if other = name then some value else entries.lookup other := by
  induction entries with
  | nil => rw [put, lookup_cons]
  | cons e rest ih =>
    obtain ⟨n, v⟩ := e
    by_cases h : n = name
    · subst h
      rw [put, if_pos rfl, lookup_cons, lookup_cons]
      split <;> simp_all
    · rw [put, if_neg h, lookup_cons, lookup_cons, ih]
      by_cases ho : other = n
      · subst ho; simp [h]
      · simp [ho]

end Calculator.Entries
