import Calculator.Proofs.Sequencing
import Calculator.Settings

/-!
# Fields of the settings

Every field has a type of its own and a way of reading its value. The settings are those of which
each field is read from its own value, and if some value is refused, all such fields are reported in
their order.
-/

namespace Calculator.Settings

open Text

/-! ### Readers -/

section Readers

variable {home : Option String} {v : RawValue} {text path : String}

lemma readText_eq_ok_iff : v.readText = .ok text ↔ v = .text text := by
  cases v <;> simp [RawValue.readText]

/-- The history file is given as a text, of which the blanks at the ends do not count. Its path is
that text with the home directory in place of a leading tilde. -/
theorem readHistoryFile_eq_ok_iff :
    readHistoryFile home v = .ok path ↔
      ∃ text, v = .text text ∧ HomePath.expand? home (strip text) = some path := by
  rw [readHistoryFile, bind_eq_ok_iff]
  refine exists_congr fun text => and_congr readText_eq_ok_iff ?_
  cases HomePath.expand? home (strip text) <;> simp

end Readers

/-! ### Single fields -/

namespace Field

lemma mem_all (field : Field) : field ∈ all := by
  cases field <;> decide

/-- What a field of this name holds. -/
def Value : Field → Type
  | .logLevel => LogLevel
  | .historyFile | .prompt => String
  | .showTokens | .showTree | .rollbackOnError => Bool
  | .maxExponent => Nat

instance : (field : Field) → DecidableEq field.Value
  | .logLevel => inferInstanceAs (DecidableEq LogLevel)
  | .historyFile | .prompt => inferInstanceAs (DecidableEq String)
  | .showTokens | .showTree | .rollbackOnError => inferInstanceAs (DecidableEq Bool)
  | .maxExponent => inferInstanceAs (DecidableEq Nat)

/-- Reads a field from its value, or takes the default if it has none. -/
def read (home : Option String) : (field : Field) → Option RawValue → Except Issue field.Value
  | .logLevel => readOr (default home).logLevel readLogLevel
  | .historyFile => readOr (default home).historyFile (readHistoryFile home)
  | .prompt => readOr (default home).prompt RawValue.readText
  | .showTokens => readOr (default home).showTokens RawValue.readTruth
  | .showTree => readOr (default home).showTree RawValue.readTruth
  | .rollbackOnError => readOr (default home).rollbackOnError RawValue.readTruth
  | .maxExponent => readOr (default home).maxExponent RawValue.readNatural

/-- Whether the value of a field is valid for it; that there is none is always valid. -/
def accepts (home : Option String) (field : Field) (value : Option RawValue) : Bool :=
  (field.read home value).isOk

lemma accepts_iff {home : Option String} {field : Field} {value : Option RawValue} :
    field.accepts home value = true ↔ ∃ v, field.read home value = .ok v := by
  rw [accepts]
  cases field.read home value <;> simp [Except.isOk, Except.toBool]

end Field

/-- What the settings hold in a field. -/
def get (s : Settings) : (field : Field) → field.Value
  | .logLevel => s.logLevel
  | .historyFile => s.historyFile
  | .prompt => s.prompt
  | .showTokens => s.showTokens
  | .showTree => s.showTree
  | .rollbackOnError => s.rollbackOnError
  | .maxExponent => s.maxExponent

lemma ext_get {s s' : Settings} (h : ∀ field, s.get field = s'.get field) : s = s' := by
  obtain ⟨_, _, _, _, _, _, _⟩ := s
  obtain ⟨_, _, _, _, _, _, _⟩ := s'
  obtain rfl := h .logLevel
  obtain rfl := h .historyFile
  obtain rfl := h .prompt
  obtain rfl := h .showTokens
  obtain rfl := h .showTree
  obtain rfl := h .rollbackOnError
  obtain rfl := h .maxExponent
  rfl

/-! ### All fields -/

variable {home : Option String} {values values' : Field → Option RawValue} {s : Settings}
  {found : List (Field × Issue)} {field : Field} {issue : Issue}

/-- The fields whose values are refused, in their order. -/
def issues (home : Option String) (values : Field → Option RawValue) : List (Field × Issue) :=
  Field.all.flatMap fun field => reported field (field.read home (values field))

lemma mem_issues_iff :
    (field, issue) ∈ issues home values ↔ field.read home (values field) = .error issue := by
  rw [issues, List.mem_flatMap]
  constructor
  · rintro ⟨other, -, hmem⟩
    cases hread : other.read home (values other) with
    | ok v => simp [reported, hread] at hmem
    | error i =>
      simp only [reported, hread, List.mem_singleton, Prod.mk.injEq] at hmem
      obtain ⟨rfl, rfl⟩ := hmem
      exact hread
  · intro hread
    refine ⟨field, field.mem_all, ?_⟩
    rw [hread]
    exact List.mem_singleton_self _

/-- The fields that are reported, in the order of all fields. -/
lemma map_fst_issues (home : Option String) (values : Field → Option RawValue) :
    (issues home values).map Prod.fst =
      Field.all.filter fun field => !field.accepts home (values field) := by
  unfold issues
  induction Field.all with
  | nil => rfl
  | cons field fields ih =>
    rw [List.flatMap_cons, List.map_append, ih, List.filter_cons, Field.accepts]
    cases field.read home (values field) <;> rfl

lemma issues_eq_nil_iff :
    issues home values = [] ↔ ∀ field : Field, ∃ v, field.read home (values field) = .ok v := by
  rw [List.eq_nil_iff_forall_not_mem]
  constructor
  · intro h field
    cases hread : field.read home (values field) with
    | ok v => exact ⟨v, rfl⟩
    | error i => exact absurd (mem_issues_iff.mpr hread) (h (field, i))
  · rintro h ⟨field, i⟩ hmem
    obtain ⟨v, hv⟩ := h field
    rw [mem_issues_iff, hv] at hmem
    cases hmem

/-- No other list names the fields with refused values in their order, each with its issue. -/
theorem eq_issues_iff :
    found = issues home values ↔
      found.map Prod.fst = (Field.all.filter fun field => !field.accepts home (values field)) ∧
        ∀ e ∈ found, e.1.read home (values e.1) = .error e.2 := by
  constructor
  · rintro rfl
    exact ⟨map_fst_issues home values, fun e he => mem_issues_iff.mp he⟩
  · rintro ⟨hfields, hread⟩
    rw [← map_fst_issues] at hfields
    have hissues : ∀ e ∈ issues home values, e.1.read home (values e.1) = .error e.2 :=
      fun e he => mem_issues_iff.mp he
    generalize issues home values = all at hfields hissues
    induction found generalizing all with
    | nil => exact (List.map_eq_nil_iff.mp hfields.symm).symm
    | cons e found ih =>
      obtain ⟨e', all, rfl, hfst, htail⟩ := List.map_eq_cons_iff.mp hfields.symm
      obtain ⟨he, hfound⟩ := List.forall_mem_cons.mp hread
      obtain ⟨he', hall⟩ := List.forall_mem_cons.mp hissues
      obtain ⟨field, issue⟩ := e
      obtain ⟨field', issue'⟩ := e'
      obtain rfl : field' = field := hfst
      obtain rfl : issue = issue' := Except.error.inj (he.symm.trans he')
      rw [ih hfound all htail.symm hall]

/-- The settings are those of which every field is read from its value, and all fields that cannot
be read are reported. -/
theorem ofValues_spec (home : Option String) (values : Field → Option RawValue) :
    (∃ s, ofValues home values = .ok s ∧
        ∀ field : Field, field.read home (values field) = .ok (s.get field)) ∨
      ofValues home values = .error (issues home values) ∧ issues home values ≠ [] := by
  unfold ofValues
  dsimp only
  split
  · refine .inl ⟨_, rfl, fun field => ?_⟩
    cases field <;> assumption
  · next hne =>
    refine .inr ⟨?_, fun hnil => ?_⟩
    · simp only [issues, Field.all, List.flatMap_cons, List.flatMap_nil, List.append_nil,
        List.append_assoc]
      rfl
    · have hread := issues_eq_nil_iff.mp hnil
      obtain ⟨logLevel, hlogLevel⟩ := hread .logLevel
      obtain ⟨historyFile, hhistoryFile⟩ := hread .historyFile
      obtain ⟨prompt, hprompt⟩ := hread .prompt
      obtain ⟨showTokens, hshowTokens⟩ := hread .showTokens
      obtain ⟨showTree, hshowTree⟩ := hread .showTree
      obtain ⟨rollbackOnError, hrollbackOnError⟩ := hread .rollbackOnError
      obtain ⟨maxExponent, hmaxExponent⟩ := hread .maxExponent
      exact hne _ _ _ _ _ _ _ hlogLevel hhistoryFile hprompt hshowTokens hshowTree
        hrollbackOnError hmaxExponent

theorem ofValues_eq_ok_iff :
    ofValues home values = .ok s ↔
      ∀ field : Field, field.read home (values field) = .ok (s.get field) := by
  rcases ofValues_spec home values with ⟨s', hok, hread⟩ | ⟨herror, hne⟩
  · rw [hok, Except.ok.injEq]
    constructor
    · rintro rfl
      exact hread
    · intro h
      refine ext_get fun field => ?_
      exact Except.ok.inj ((hread field).symm.trans (h field))
  · rw [herror]
    refine ⟨nofun, fun h => absurd (issues_eq_nil_iff.mpr fun field => ⟨_, h field⟩) hne⟩

theorem exists_ofValues_eq_ok_iff :
    (∃ s, ofValues home values = .ok s) ↔
      ∀ field : Field, field.accepts home (values field) = true := by
  simp only [Field.accepts_iff]
  rcases ofValues_spec home values with ⟨s, hok, hread⟩ | ⟨herror, hne⟩
  · exact ⟨fun _ field => ⟨_, hread field⟩, fun _ => ⟨s, hok⟩⟩
  · rw [herror]
    exact ⟨nofun, fun h => absurd (issues_eq_nil_iff.mpr h) hne⟩

theorem ofValues_eq_error_iff :
    ofValues home values = .error found ↔ found = issues home values ∧ found ≠ [] := by
  rcases ofValues_spec home values with ⟨s, hok, hread⟩ | ⟨herror, hne⟩
  · have hnil : issues home values = [] := issues_eq_nil_iff.mpr fun field => ⟨_, hread field⟩
    rw [hok, hnil]
    exact ⟨nofun, fun ⟨heq, hne⟩ => absurd heq hne⟩
  · rw [herror, Except.error.injEq, eq_comm]
    exact ⟨fun h => ⟨h, h ▸ hne⟩, And.left⟩

end Calculator.Settings
