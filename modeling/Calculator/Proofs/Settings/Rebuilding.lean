import Calculator.Proofs.Settings

/-!
# Settings from settings

The values of settings are in normal form: a log level is a name in capitals, the path of the
history has no blanks at its ends and no tilde that stands for the home directory, and the others
are what they were given as. So settings that are built from the values of settings are the same.
-/

namespace Calculator

open Text

/-! ### Paths -/

namespace HomePath

variable {h path : String}

/-- The home directory is an absolute path, and there is no blank in it. -/
structure IsRooted (h : String) : Prop where
  head?_eq : h.toList.head? = some '/'
  not_blank : ∀ c ∈ h.toList, isBlank c = false

/-- The path has no blank at either end, and whatever the home directory is, there is no tilde to
put it in place of. -/
structure IsSettled (path : String) : Prop where
  strip_eq : strip path = path
  expand?_eq : ∀ home, expand? home path = some path

lemma expand?_of_head?_ne {path : String} (hpath : path.toList.head? ≠ some '~')
    (home : Option String) : expand? home path = some path := by
  unfold expand?
  split
  · next heq => exact absurd (by rw [heq]; rfl) hpath
  · rfl

lemma expand?_of_tilde {path : String} {rest : List Char} (hpath : path.toList = '~' :: rest)
    (home : Option String) : expand? home path =
      if rest.takeWhile (· ≠ '/') = [] then some (inHome home rest)
      else if '\x00' ∈ rest.takeWhile (· ≠ '/') then none else some path := by
  unfold expand?
  rw [hpath]
  rfl

lemma isSettled_of_slash (cs : List Char)
    (hlast : ∀ c ∈ ('/' :: cs).getLast?, isBlank c = false) :
    IsSettled (String.ofList ('/' :: cs)) where
  strip_eq := strip_of_ends (by rw [String.toList_ofList]; rintro c ⟨⟩; rfl)
    (by rwa [String.toList_ofList])
  expand?_eq := expand?_of_head?_ne (by rw [String.toList_ofList]; simp)

/-- What lies under the home directory is settled. -/
lemma isSettled_inHome (hhome : IsRooted h) {rest : List Char}
    (hfirst : ∀ c ∈ rest.head?, c = '/') (hlast : ∀ c ∈ rest.getLast?, isBlank c = false) :
    IsSettled (inHome (some h) rest) := by
  have hfront : (h.toList.reverse.dropWhile (· = '/')).reverse <+: h.toList := by
    rw [← List.reverse_suffix, List.reverse_reverse]
    exact List.dropWhile_suffix _
  unfold inHome
  dsimp only
  generalize (h.toList.reverse.dropWhile (· = '/')).reverse = dir at hfront
  split
  · exact isSettled_of_slash [] (by rintro c ⟨⟩; rfl)
  · next hne =>
    -- the first character is that of the home directory, or that of the rest if nothing is left
    have hslash : (dir ++ rest).head? = some '/' := by
      cases dir with
      | nil =>
        obtain ⟨c, cs, rfl⟩ := List.exists_cons_of_ne_nil hne
        exact congrArg some (hfirst c rfl)
      | cons c dir =>
        obtain ⟨tail, htail⟩ := hfront
        rw [← hhome.head?_eq, ← htail]
        rfl
    have hend : ∀ c ∈ (dir ++ rest).getLast?, isBlank c = false := by
      intro c hc
      rw [List.getLast?_append] at hc
      cases hrest : rest.getLast? with
      | some d =>
        rw [hrest] at hc hlast
        exact hlast c hc
      | none =>
        rw [hrest, Option.none_or] at hc
        exact hhome.not_blank c (hfront.subset (List.mem_of_getLast? hc))
    obtain ⟨cs, hcs⟩ := List.head?_eq_some_iff.mp hslash
    rw [hcs] at hend ⊢
    exact isSettled_of_slash cs hend

/-- A path without blanks at its ends is settled once it is expanded. -/
lemma isSettled_of_expand? (hhome : IsRooted h) {text : String}
    (hfirst : ∀ c ∈ text.toList.head?, isBlank c = false)
    (hlast : ∀ c ∈ text.toList.getLast?, isBlank c = false)
    (hexpand : expand? (some h) text = some path) : IsSettled path := by
  by_cases htilde : text.toList.head? = some '~'
  · obtain ⟨rest, hrest⟩ := List.head?_eq_some_iff.mp htilde
    rw [expand?_of_tilde hrest] at hexpand
    split at hexpand
    · next huser =>
      cases hexpand
      refine isSettled_inHome hhome (fun c hc => ?_) (fun c hc => hlast c ?_)
      · cases rest with
        | nil => cases hc
        | cons d rest =>
          cases hc
          by_contra hne
          simp [hne] at huser
      · rw [hrest, List.getLast?_cons, hc]
        rfl
    · next huser =>
      split at hexpand
      · cases hexpand
      · next hnull =>
        cases hexpand
        refine ⟨strip_of_ends hfirst hlast, fun home => ?_⟩
        rw [expand?_of_tilde hrest, if_neg huser, if_neg hnull]
  · rw [expand?_of_head?_ne htilde] at hexpand
    cases hexpand
    exact ⟨strip_of_ends hfirst hlast, expand?_of_head?_ne htilde⟩

end HomePath

namespace Settings

open HomePath

/-! ### Values of settings -/

/-- A value of a field as it may be given for the field. -/
def Field.raw : (field : Field) → field.Value → RawValue
  | .logLevel, level => .text (LogLevel.name level)
  | .historyFile, text | .prompt, text => .text text
  | .showTokens, b | .showTree, b | .rollbackOnError, b => .truth b
  | .maxExponent, n => .integer (Int.ofNat n)

/-- All that settings hold, as it may be given for settings. -/
def raw (s : Settings) (field : Field) : Option RawValue := some (field.raw (s.get field))

/-! ### Values in normal form -/

variable {h path : String} {home : Option String} {values : Field → Option RawValue}
  {s : Settings} {v : RawValue} {level : LogLevel} {n : Nat}

lemma capitals_name (level : LogLevel) : capitals level.name = level.name := by
  cases level <;> decide +kernel

lemma strip_name (level : LogLevel) : strip level.name = level.name := by
  cases level <;> decide +kernel

lemma ofText?_name (level : LogLevel) : LogLevel.ofText? level.name = some level := by
  cases level <;> decide +kernel

lemma name_of_readLogLevel (h : readLogLevel v = .ok level) :
    ∃ text, v = .text text ∧ level.name = capitals (strip text) := by
  obtain ⟨text, htext, hlevel⟩ := bind_eq_ok_iff.mp h
  refine ⟨text, readText_eq_ok_iff.mp htext, ?_⟩
  split at hlevel
  · next level' hfind =>
    cases hlevel
    rw [LogLevel.ofText?] at hfind
    simpa only [decide_eq_true_eq] using List.find?_some hfind
  · cases hlevel

lemma isSettled_of_readHistoryFile (hhome : IsRooted h)
    (hread : readHistoryFile (some h) v = .ok path) : IsSettled path := by
  obtain ⟨text, -, hexpand⟩ := readHistoryFile_eq_ok_iff.mp hread
  exact isSettled_of_expand? hhome head?_strip getLast?_strip hexpand

lemma isSettled_default (hhome : IsRooted h) : IsSettled (default (some h)).historyFile := by
  have hfirst : "/.pratt_calc_history".toList.head? = some '/' := by decide +kernel
  have hlast : "/.pratt_calc_history".toList.getLast? = some 'y' := by decide +kernel
  refine isSettled_inHome hhome (fun c hc => ?_) (fun c hc => ?_)
  · exact (Option.some.inj (hfirst.symm.trans hc)).symm
  · obtain rfl : 'y' = c := Option.some.inj (hlast.symm.trans hc)
    rfl

lemma readInteger_of_readNatural (h : v.readNatural = .ok n) : v.readInteger = .ok (n : Int) := by
  obtain ⟨i, hi, hn⟩ := bind_eq_ok_iff.mp h
  split at hn
  · cases hn
  · next hnonneg =>
    cases hn
    rw [hi, Int.toNat_of_nonneg (Int.not_lt.mp hnonneg)]

/-! ### Reading values of settings -/

lemma readLogLevel_name (level : LogLevel) : readLogLevel (.text level.name) = .ok level := by
  rw [readLogLevel, RawValue.readText, ok_bind, ofText?_name]

lemma readHistoryFile_of_isSettled (home : Option String) (hpath : IsSettled path) :
    readHistoryFile home (.text path) = .ok path :=
  readHistoryFile_eq_ok_iff.mpr ⟨path, rfl, by rw [hpath.strip_eq, hpath.expand?_eq]⟩

lemma readNatural_natCast (n : Nat) : RawValue.readNatural (.integer n) = .ok n := by
  have hnonneg : ¬ (n : Int) < 0 := by omega
  rw [RawValue.readNatural, RawValue.readInteger, ok_bind, if_neg hnonneg, Int.toNat_natCast]

/-- Every field of the settings is read back from what it holds. -/
lemma read_raw (home : Option String) (hpath : IsSettled s.historyFile) (field : Field) :
    field.read home (s.raw field) = .ok (s.get field) := by
  cases field with
  | logLevel => exact readLogLevel_name s.logLevel
  | historyFile => exact readHistoryFile_of_isSettled home hpath
  | prompt | showTokens | showTree | rollbackOnError => rfl
  | maxExponent => exact readNatural_natCast s.maxExponent

/-- Settings that are built again from all that they hold are the same. The level of the log has one
of its names, in capitals and without blanks around it; the path of the history is the one that was
given, without blanks around it and expanded, and it is settled; the limit on exponents is the
integer that was given, which is not negative; and a text for the prompt or a truth value for a
switch is held as it was given. -/
theorem ofValues_raw (hhome : IsRooted h) (hs : ofValues (some h) values = .ok s) :
    ofValues (some h) s.raw = .ok s ∧
      (s.logLevel.name ∈ LogLevel.all.map LogLevel.name ∧
        capitals s.logLevel.name = s.logLevel.name ∧ strip s.logLevel.name = s.logLevel.name ∧
        ∀ text, values .logLevel = some (.text text) →
          s.logLevel.name = capitals (strip text)) ∧
      (strip s.historyFile = s.historyFile ∧
        (∀ home, expand? home s.historyFile = some s.historyFile) ∧
        ∀ text, values .historyFile = some (.text text) →
          expand? (some h) (strip text) = some s.historyFile) ∧
      (∀ v, values .maxExponent = some v → v.readInteger = .ok (s.maxExponent : Int)) ∧
      ∀ field ∈ [Field.prompt, Field.showTokens, Field.showTree, Field.rollbackOnError],
        ∀ v, values field = some (field.raw v) → s.get field = v := by
  have hread := ofValues_eq_ok_iff.mp hs
  have hhistory : readOr (default (some h)).historyFile (readHistoryFile (some h))
      (values .historyFile) = .ok s.historyFile := hread .historyFile
  have hpath : IsSettled s.historyFile := by
    cases hvalue : values .historyFile with
    | none =>
      rw [hvalue] at hhistory
      exact Except.ok.inj hhistory ▸ isSettled_default hhome
    | some v =>
      rw [hvalue] at hhistory
      exact isSettled_of_readHistoryFile hhome hhistory
  refine ⟨ofValues_eq_ok_iff.mpr (read_raw (some h) hpath),
    ⟨?_, capitals_name _, strip_name _, fun text htext => ?_⟩,
    ⟨hpath.strip_eq, hpath.expand?_eq, fun text htext => ?_⟩, fun v hv => ?_,
    fun field hfield v hv => ?_⟩
  · cases s.logLevel <;> decide
  · have hlevel : readOr (default (some h)).logLevel readLogLevel (values .logLevel) =
        .ok s.logLevel := hread .logLevel
    rw [htext] at hlevel
    obtain ⟨text', ⟨⟩, hname⟩ := name_of_readLogLevel hlevel
    exact hname
  · rw [htext, readOr] at hhistory
    obtain ⟨text', ⟨⟩, hexpand⟩ := readHistoryFile_eq_ok_iff.mp hhistory
    exact hexpand
  · have hlimit : readOr (default (some h)).maxExponent RawValue.readNatural (values .maxExponent) =
        .ok s.maxExponent := hread .maxExponent
    rw [hv] at hlimit
    exact readInteger_of_readNatural hlimit
  · have hvalue := hread field
    rw [hv] at hvalue
    simp only [List.mem_cons, List.not_mem_nil, or_false] at hfield
    obtain rfl | rfl | rfl | rfl := hfield <;> exact (Except.ok.inj hvalue).symm

/-- A long s is an S in capitals, the path lies in the home directory, and the number is whole. -/
theorem ofValues_raw_of_mixed :
    let values : Field → Option RawValue
      | .logLevel => some (.text " notſet\t")
      | .historyFile => some (.text "\n~/calc ")
      | .prompt => some (.text " ~ ")
      | .showTokens => some (.truth true)
      | .showTree => some (.text "Off")
      | .rollbackOnError => none
      | .maxExponent => some (.floating 5 2)
    let s : Settings := ⟨.notset, "/home/user/calc", " ~ ", true, false, false, 20⟩
    (IsRooted "/home/user" ∧ ofValues (some "/home/user") values = .ok s) ∧
      ofValues (some "/home/user") s.raw = .ok s ∧
      s.logLevel.name = capitals (strip " notſet\t") ∧
      (expand? none s.historyFile = some s.historyFile ∧
        expand? (some "/home/user") (strip "\n~/calc ") = some s.historyFile) ∧
      (RawValue.floating 5 2).readInteger = .ok s.maxExponent ∧
      s.get .prompt = " ~ " := by
  intro values s
  have hblank : "/home/user".toList.any isBlank = false := by decide +kernel
  have hhome : IsRooted "/home/user" :=
    ⟨by decide, fun c hc => Bool.eq_false_iff.mpr (List.any_eq_false.mp hblank c hc)⟩
  have hs : ofValues (some "/home/user") values = .ok s := by
    refine ofValues_eq_ok_iff.mpr fun field => ?_
    cases field <;> decide +kernel
  obtain ⟨hagain, ⟨-, -, -, hlevel⟩, ⟨-, hsettled, hpath⟩, hlimit, hothers⟩ :=
    ofValues_raw hhome hs
  exact ⟨⟨hhome, hs⟩, hagain, hlevel _ rfl, ⟨hsettled none, hpath _ rfl⟩, hlimit _ rfl,
    hothers .prompt (by decide) _ rfl⟩

end Settings

end Calculator
