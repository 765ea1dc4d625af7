import Calculator.Proofs.Assignments
import Calculator.Proofs.Settings
import Mathlib.Data.List.Induction

/-!
# Precedence of sources

A field of the settings is read from a single value: an override that is not null, else the variable
of the field, else what the file of variables says of it last. What the other sources say does not
matter, and neither does what any source says of other fields.
-/

namespace Calculator

/-! ### Files without references -/

namespace EnvFile

variable {inherited : List (String × String)} {file : List Binding} {name : String}

/-- The key and the value can be a variable, and the value refers to no other variable. -/
structure Binding.IsPlain (b : Binding) : Prop where
  key_null : '\x00' ∉ b.key.toList
  key_equals : '=' ∉ b.key.toList
  value_null : ∀ v ∈ b.value, '\x00' ∉ v.toList
  namesIn_eq : ∀ v ∈ b.value, namesIn v.toList = []

instance (b : Binding) : Decidable b.IsPlain :=
  decidable_of_iff ((('\x00' ∉ b.key.toList ∧ '=' ∉ b.key.toList) ∧
      ∀ v ∈ b.value, '\x00' ∉ v.toList) ∧ ∀ v ∈ b.value, namesIn v.toList = [])
    ⟨fun ⟨⟨⟨h₁, h₂⟩, h₃⟩, h₄⟩ => ⟨h₁, h₂, h₃, h₄⟩, fun ⟨h₁, h₂, h₃, h₄⟩ => ⟨⟨⟨h₁, h₂⟩, h₃⟩, h₄⟩⟩

lemma Binding.IsPlain.loadError? {b : Binding} (h : b.IsPlain) {v : String}
    (hv : b.value = some v) : loadError? b.key v = none := by
  rw [EnvFile.loadError?, if_neg (not_or.mpr ⟨h.key_null, h.value_null v hv⟩),
    if_neg h.key_equals]

lemma namesIn_cons_eq_nil {c : Char} {cs : List Char} (h : namesIn (c :: cs) = []) :
    namesIn cs = [] ∧ (c = '$' ∧ cs.head? = some '\x7b' → Reference.read? cs.tail = none) := by
  rw [namesIn.eq_def] at h
  dsimp only at h
  split at h
  · split at h
    · cases h
    · next hread => exact ⟨h, fun _ => hread⟩
  · next hne =>
    refine ⟨h, fun ⟨hc, hhead⟩ => ?_⟩
    obtain ⟨rest, hrest⟩ := List.head?_eq_some_iff.mp hhead
    exact absurd hrest (hne rest hc)

/-- A text without references stays as it is. -/
lemma expand_of_namesIn_eq_nil (value? : String → Option String) {cs : List Char}
    (h : namesIn cs = []) : expand value? cs = cs := by
  induction cs with
  | nil => rw [expand]
  | cons c cs ih =>
    obtain ⟨hrest, hread⟩ := namesIn_cons_eq_nil h
    rw [expand]
    split
    · next hc =>
      split
      · next heq => rw [hread hc] at heq; cases heq
      · rw [ih hrest]
    · rw [ih hrest]

lemma define_of_isPlain (known : List (String × Option String)) {b : Binding} (h : b.IsPlain) :
    define inherited known b = Entries.put b.key b.value known := by
  have hvalue : b.value.map (expandText (valueFor inherited known)) = b.value := by
    cases hv : b.value with
    | none => rfl
    | some v =>
      rw [Option.map_some, expandText, expand_of_namesIn_eq_nil _ (h.namesIn_eq v hv),
        String.ofList_toList]
  rw [define, hvalue]

/-- What the last line for a name gives it, if there is one: a value, or nothing. -/
def lastBinding? (file : List Binding) (name : String) : Option (Option String) :=
  (file.reverse.find? (·.key = name)).map Binding.value

/-- The definitions of a plain file: each name once, with what its last line gives it. -/
lemma definitions_of_isPlain (inherited : List (String × String)) (hplain : ∀ b ∈ file, b.IsPlain) :
    ((definitions inherited file).map Prod.fst).Nodup ∧
      (∀ name, (definitions inherited file).lookup name = lastBinding? file name) ∧
      ∀ e ∈ definitions inherited file, ∀ v, e.2 = some v → loadError? e.1 v = none := by
  induction file using List.reverseRecOn with
  | nil => exact ⟨List.nodup_nil, fun name => rfl, nofun⟩
  | append_singleton file b ih =>
    obtain ⟨hfile, hb⟩ := List.forall_mem_append.mp hplain
    have hb : b.IsPlain := hb b (List.mem_singleton_self b)
    obtain ⟨hnodup, hlookup, herror⟩ := ih hfile
    have hdefinitions : definitions inherited (file ++ [b]) =
        Entries.put b.key b.value (definitions inherited file) := by
      rw [definitions, List.foldl_append, List.foldl_cons, List.foldl_nil, define_of_isPlain _ hb]
      rfl
    rw [hdefinitions]
    refine ⟨Entries.nodup_put hnodup, fun name => ?_, fun e he v hv => ?_⟩
    · rw [Entries.lookup_put, hlookup, lastBinding?, lastBinding?, List.reverse_append,
        List.reverse_singleton, List.singleton_append, List.find?_cons]
      by_cases hname : name = b.key
      · simp [hname]
      · have hkey : ¬ b.key = name := fun h => hname h.symm
        simp [hname, hkey]
    · rcases Entries.mem_put he with rfl | he
      · exact hb.loadError? hv
      · exact herror e he v hv

lemma additions_of_nodup (inherited : List (String × String))
    {entries : List (String × Option String)} (hnodup : (entries.map Prod.fst).Nodup)
    (herror : ∀ e ∈ entries, ∀ v, e.2 = some v → loadError? e.1 v = none) :
    ∃ added, additions inherited entries = .ok added ∧
      ∀ name, inherited.lookup name = none → added.lookup name = (entries.lookup name).join := by
  induction entries with
  | nil => exact ⟨[], rfl, fun _ _ => rfl⟩
  | cons e entries ih =>
    obtain ⟨key, value?⟩ := e
    obtain ⟨hkey, hnodup⟩ := List.nodup_cons.mp hnodup
    obtain ⟨herror, hrest⟩ := List.forall_mem_cons.mp herror
    obtain ⟨added, hadded, hlookup⟩ := ih hnodup hrest
    cases value? with
    | none =>
      refine ⟨added, hadded, fun name hname => ?_⟩
      rw [hlookup name hname, Entries.lookup_cons]
      split
      · next heq => rw [heq, Entries.lookup_eq_none_iff.mpr hkey]; rfl
      · rfl
    | some value =>
      cases hinherited : inherited.lookup key with
      | some text =>
        refine ⟨added, by simp [additions, hinherited, hadded], fun name hname => ?_⟩
        have hne : name ≠ key := by
          rintro rfl
          rw [hinherited] at hname
          cases hname
        rw [hlookup name hname, Entries.lookup_cons, if_neg hne]
      | none =>
        refine ⟨(key, value) :: added, ?_, fun name hname => ?_⟩
        · simp [additions, hinherited, herror value rfl, hadded, Except.map]
        · rw [Entries.lookup_cons, Entries.lookup_cons, hlookup name hname]
          split <;> rfl

/-- Lines for another name do not matter. -/
lemma lastBinding?_filter {other : String} (h : name ≠ other) (file : List Binding) :
    lastBinding? (file.filter (·.key ≠ other)) name = lastBinding? file name := by
  rw [lastBinding?, lastBinding?, ← List.filter_reverse, List.find?_filter]
  congr 2
  funext b
  by_cases hb : b.key = name <;> simp [hb, h]

/-- What a file gives a name: the value on its last line for the name. -/
def fileValue? (inherited : List (String × String)) (file : List Binding) (name : String) :
    Option String :=
  if isSwitchedOff inherited then none else (lastBinding? file name).join

/-- A plain file is loaded, and its entries count where no variable is inherited. -/
theorem load_of_isPlain (inherited : List (String × String)) (hplain : ∀ b ∈ file, b.IsPlain) :
    ∃ environment, load inherited file = .ok environment ∧
      ∀ name, environment.lookup name =
        (inherited.lookup name).or (fileValue? inherited file name) := by
  unfold load fileValue?
  split
  · exact ⟨inherited, rfl, fun name => Option.or_none.symm⟩
  · obtain ⟨hnodup, hdefinitions, herror⟩ := definitions_of_isPlain inherited hplain
    obtain ⟨added, hadded, hlookup⟩ := additions_of_nodup inherited hnodup herror
    refine ⟨inherited ++ added, by rw [hadded]; rfl, fun name => ?_⟩
    rw [List.lookup_append]
    cases hname : inherited.lookup name with
    | some text => rfl
    | none => rw [hlookup name hname, hdefinitions]

end EnvFile

/-! ### Sources -/

namespace Settings

open EnvFile

lemma Field.variableName_injective : Function.Injective Field.variableName := by
  have h : ∀ field ∈ all, ∀ other ∈ all,
      field.variableName = other.variableName → field = other := by decide +kernel
  exact fun field other => h field field.mem_all other other.mem_all

/-- No field is read from the variables on which reading all fields depends. -/
lemma Field.ne_variableName (field : Field) :
    "HOME" ≠ field.variableName ∧ switchName ≠ field.variableName := by
  have h : ∀ field ∈ all, "HOME" ≠ field.variableName ∧ switchName ≠ field.variableName := by
    decide +kernel
  exact h field field.mem_all

/-- Where the fields get their values from. -/
structure Sources where
  overrides : Field → Option RawValue
  inherited : List (String × String)
  file : List EnvFile.Binding

namespace Sources

/-- The override of a field, unless it is null. -/
def override? (s : Sources) (field : Field) : Option RawValue :=
  (s.overrides field).filter (· ≠ .null)

/-- The single value that counts for a field. Without one the default counts. -/
def winner? (s : Sources) (field : Field) : Option RawValue :=
  (s.override? field).or <| Option.map .text <|
    (s.inherited.lookup field.variableName).or (fileValue? s.inherited s.file field.variableName)

/-- The home directory, which is a variable like others. -/
def home? (s : Sources) : Option String :=
  (s.inherited.lookup "HOME").or (fileValue? s.inherited s.file "HOME")

/-- The settings that the sources give. -/
def load (s : Sources) : Except LoadFailure Settings :=
  Settings.load s.overrides s.inherited s.file

variable {s s' : Sources}

lemma fieldValue_eq_winner? {environment : List (String × String)}
    (h : ∀ name, environment.lookup name =
      (s.inherited.lookup name).or (fileValue? s.inherited s.file name)) :
    fieldValue s.overrides environment = s.winner? := by
  funext field
  unfold fieldValue winner? override?
  rw [h]
  split
  · next hfield => simp [hfield]
  · next hfield => simp [hfield, Option.filter]
  · next v hnull hfield =>
    have hne : v ≠ .null := hnull
    simp [hfield, Option.filter, hne]

/-- Only the values that win count. -/
theorem load_eq_ofValues (hplain : ∀ b ∈ s.file, b.IsPlain) :
    s.load = (ofValues s.home? s.winner?).mapError .fields := by
  obtain ⟨environment, hload, hlookup⟩ := load_of_isPlain s.inherited hplain
  unfold load Settings.load resolve
  rw [hload]
  dsimp only
  rw [fieldValue_eq_winner? hlookup, hlookup]
  rfl

/-! ### What is reported -/

/-- The settings cannot be had, and this issue with the field is among those that are reported. -/
def Reports (result : Except LoadFailure Settings) (field : Field) (issue : Issue) : Prop :=
  ∃ found, result = .error (.fields found) ∧ (field, issue) ∈ found

variable {settings : Settings} {failure : LoadFailure} {field g : Field} {issue : Issue}

lemma load_eq_ok_iff_ofValues (hplain : ∀ b ∈ s.file, b.IsPlain) :
    s.load = .ok settings ↔ ofValues s.home? s.winner? = .ok settings := by
  rw [load_eq_ofValues hplain, mapError_eq_ok_iff]

lemma load_eq_ok_iff (hplain : ∀ b ∈ s.file, b.IsPlain) :
    s.load = .ok settings ↔
      ∀ field : Field, field.read s.home? (s.winner? field) = .ok (settings.get field) := by
  rw [load_eq_ok_iff_ofValues hplain, ofValues_eq_ok_iff]

lemma load_eq_error_iff (hplain : ∀ b ∈ s.file, b.IsPlain) :
    s.load = .error failure ↔
      issues s.home? s.winner? ≠ [] ∧ failure = .fields (issues s.home? s.winner?) := by
  rw [load_eq_ofValues hplain, mapError_eq_error_iff]
  constructor
  · rintro ⟨found, hfound, rfl⟩
    obtain ⟨rfl, hne⟩ := ofValues_eq_error_iff.mp hfound
    exact ⟨hne, rfl⟩
  · rintro ⟨hne, rfl⟩
    exact ⟨_, ofValues_eq_error_iff.mpr ⟨rfl, hne⟩, rfl⟩

lemma reports_load_iff (hplain : ∀ b ∈ s.file, b.IsPlain) :
    Reports s.load field issue ↔ field.read s.home? (s.winner? field) = .error issue := by
  have hmem_iff : (field, issue) ∈ issues s.home? s.winner? ↔
      field.read s.home? (s.winner? field) = .error issue := mem_issues_iff
  rw [← hmem_iff]
  constructor
  · rintro ⟨found, hfound, hmem⟩
    obtain ⟨-, hfields⟩ := (load_eq_error_iff hplain).mp hfound
    cases hfields
    exact hmem
  · intro hmem
    exact ⟨_, (load_eq_error_iff hplain).mpr ⟨List.ne_nil_of_mem hmem, rfl⟩, hmem⟩

/-! ### Sources of other fields -/

/-- The two agree on all that is said of other things than the field `g`. -/
structure DifferOnlyIn (g : Field) (s s' : Sources) : Prop where
  overrides : ∀ field ≠ g, s.overrides field = s'.overrides field
  inherited : ∀ name ≠ g.variableName, s.inherited.lookup name = s'.inherited.lookup name
  file : s.file.filter (·.key ≠ g.variableName) = s'.file.filter (·.key ≠ g.variableName)

namespace DifferOnlyIn

variable (h : DifferOnlyIn g s s')

include h

lemma fileValue? {name : String} (hname : name ≠ g.variableName) :
    fileValue? s.inherited s.file name = fileValue? s'.inherited s'.file name := by
  have hswitch : isSwitchedOff s.inherited = isSwitchedOff s'.inherited := by
    unfold isSwitchedOff
    rw [h.inherited switchName g.ne_variableName.2]
  have hbinding : lastBinding? s.file name = lastBinding? s'.file name := by
    rw [← lastBinding?_filter hname, h.file, lastBinding?_filter hname]
  rw [EnvFile.fileValue?, EnvFile.fileValue?, hswitch, hbinding]

lemma winner? (hfield : field ≠ g) : s.winner? field = s'.winner? field := by
  have hname : field.variableName ≠ g.variableName :=
    Field.variableName_injective.ne hfield
  rw [Sources.winner?, Sources.winner?, override?, override?, h.overrides field hfield,
    h.inherited _ hname, h.fileValue? hname]

lemma home? : s.home? = s'.home? := by
  have hname := g.ne_variableName.1
  rw [Sources.home?, Sources.home?, h.inherited _ hname, h.fileValue? hname]

end DifferOnlyIn

/-- A null override is none. -/
lemma load_of_null (h : s.overrides g = some .null) :
    load { s with overrides := fun field => if field = g then none else s.overrides field } =
      s.load := by
  have hvalue (environment : List (String × String)) :
      fieldValue (fun field => if field = g then none else s.overrides field) environment =
        fieldValue s.overrides environment := by
    funext field
    unfold fieldValue
    by_cases hfield : field = g
    · simp [hfield, h]
    · simp [hfield]
  unfold load Settings.load resolve
  simp only [hvalue]

/-- Each field is read from the one value that wins for it. There are settings exactly if every such
value is valid, and otherwise the fields with invalid ones are reported in their order. A value that
does not win has no influence, a null override counts as none, and what the sources say of one field
has no influence on what becomes of another. -/
theorem load_by_precedence :
    (∀ s : Sources, (∀ b ∈ s.file, b.IsPlain) →
      (∀ settings, s.load = .ok settings ↔
        ∀ field : Field, field.read s.home? (s.winner? field) = .ok (settings.get field)) ∧
      ((∃ settings, s.load = .ok settings) ↔
        ∀ field : Field, field.accepts s.home? (s.winner? field) = true) ∧
      ∀ failure, s.load = .error failure ↔ ∃ found, failure = .fields found ∧ found ≠ [] ∧
        found.map Prod.fst =
          Field.all.filter (fun field => !field.accepts s.home? (s.winner? field)) ∧
        ∀ e ∈ found, e.1.read s.home? (s.winner? e.1) = .error e.2) ∧
    (∀ (s : Sources) (g : Field), s.overrides g = some .null →
      load { s with overrides := fun field => if field = g then none else s.overrides field } =
        s.load) ∧
    ∀ (g : Field) (s s' : Sources), (∀ b ∈ s.file, b.IsPlain) → (∀ b ∈ s'.file, b.IsPlain) →
      DifferOnlyIn g s s' →
        (s.winner? g = s'.winner? g → s.load = s'.load) ∧
        ∀ field ≠ g,
          (∀ settings settings', s.load = .ok settings → s'.load = .ok settings' →
            settings.get field = settings'.get field) ∧
          ∀ issue, Reports s.load field issue ↔ Reports s'.load field issue := by
  refine ⟨fun s hplain => ⟨fun settings => load_eq_ok_iff hplain, ?_, fun failure => ?_⟩,
    fun s g h => load_of_null h, fun g s s' hplain hplain' h => ⟨fun hwinner => ?_,
      fun field hfield => ⟨fun settings settings' hload hload' => ?_, fun issue => ?_⟩⟩⟩
  · simp only [load_eq_ok_iff_ofValues hplain, exists_ofValues_eq_ok_iff]
  · rw [load_eq_error_iff hplain]
    constructor
    · rintro ⟨hne, rfl⟩
      exact ⟨_, rfl, hne, eq_issues_iff.mp rfl⟩
    · rintro ⟨found, rfl, hne, hfound⟩
      rw [← eq_issues_iff.mpr hfound]
      exact ⟨hne, rfl⟩
  · have hall : s.winner? = s'.winner? := by
      funext field
      by_cases hfield : field = g
      · rw [hfield, hwinner]
      · exact h.winner? hfield
    rw [load_eq_ofValues hplain, load_eq_ofValues hplain', h.home?, hall]
  · have hread := (load_eq_ok_iff hplain).mp hload field
    rw [h.home?, h.winner? hfield, (load_eq_ok_iff hplain').mp hload' field] at hread
    exact (Except.ok.inj hread).symm
  · rw [reports_load_iff hplain, reports_load_iff hplain', h.home?, h.winner? hfield]

/-- Every field has a source. The invalid limits are hidden by an override, and the null override
hides nothing. Once the word for the tree is a valid one, the other fields are what they would have
been. -/
theorem load_by_precedence_hidden :
    let overrides : Field → Option RawValue
      | .showTokens => some .null
      | .maxExponent => some (.integer 5)
      | _ => none
    let inherited := [("HOME", "/home/user"), ("PRATT_CALC_SHOW_TOKENS", "on"),
      ("PRATT_CALC_MAX_EXPONENT", "-1"), ("PRATT_CALC_HISTORY_FILE", " ~/calc\t")]
    let file (word : String) : List EnvFile.Binding := [⟨"PRATT_CALC_LOG_LEVEL", some " debug"⟩,
      ⟨"PRATT_CALC_HISTORY_FILE", some "~/other"⟩, ⟨"PRATT_CALC_PROMPT", some "? "⟩,
      ⟨"PRATT_CALC_ROLLBACK_ON_ERROR", some "1"⟩, ⟨"PRATT_CALC_SHOW_TREE", some word⟩,
      ⟨"PRATT_CALC_MAX_EXPONENT", some "many"⟩]
    let s : Sources := ⟨overrides, inherited, file "maybe"⟩
    let s' : Sources := ⟨overrides, inherited, file "yes"⟩
    ((∀ b ∈ s.file, b.IsPlain) ∧ (∀ b ∈ s'.file, b.IsPlain) ∧ s.overrides .showTokens = some .null ∧
      DifferOnlyIn .showTree s s') ∧
    s.load = .error (.fields [(.showTree, .unreadableTruth)]) ∧
    s'.load = .ok ⟨.debug, "/home/user/calc", "? ", true, true, true, 5⟩ ∧
    ∀ issue, Reports s.load .maxExponent issue ↔ Reports s'.load .maxExponent issue := by
  intro overrides inherited file s s'
  have hplain : ∀ b ∈ s.file, b.IsPlain := by decide +kernel
  have hplain' : ∀ b ∈ s'.file, b.IsPlain := by decide +kernel
  have hdiffer : DifferOnlyIn .showTree s s' :=
    ⟨fun _ _ => rfl, fun _ _ => rfl, by decide +kernel⟩
  obtain ⟨hload, -, hothers⟩ := load_by_precedence
  refine ⟨⟨hplain, hplain', rfl, hdiffer⟩, ?_, ?_, ?_⟩
  · refine ((hload s hplain).2.2 _).mpr ⟨_, rfl, by decide, by decide +kernel, ?_⟩
    intro e he
    obtain rfl := List.mem_singleton.mp he
    decide +kernel
  · refine ((hload s' hplain').1 _).mpr fun field => ?_
    cases field <;> decide +kernel
  · exact ((hothers .showTree s s' hplain hplain' hdiffer).2 .maxExponent (by decide)).2

end Sources

end Settings

end Calculator
