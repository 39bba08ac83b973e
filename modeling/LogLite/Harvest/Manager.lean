import LogLite.Harvest.Socket
import LogLite.Lib.Dict

/-!
# The harvester manager

`HarvesterManager.load_harvesters` goes through the definitions of the configuration.  For
each it imports the class, makes the object of its configuration and then the harvester,
and keeps the harvester in a `dict` under its name.  Definitions that do not work are to be
skipped.

What an import, an attribute or a call gives is the interpreter's, and a parameter here.
Two harvesters are different objects even if they are made alike, so each one comes with
the place of its definition in the list.

## Main definitions

* `DefinitionDict`, `Interpreter` — a definition, and what the module asks of Python.
* `importClass`, `loadDefinition`, `loadHarvesters`, `startAll` — the functions of the module.
* `Constructs`, `Escapes` — a harvester can be made of a definition; its exception is not
  caught.
* `LoadsAll` — the harvesters are those of the definitions they can be made of, and all of
  them are started.

## Main results

* `loadDefinition_eq_loaded_iff`, `loadDefinition_raises_iff` — one definition.
* `loads_all_iff` — **when one bad definition does not affect the others.**
-/

namespace LogLite

/-! ### Python -/

/-- The exceptions, by the clauses that catch them. -/
inductive Raised where
  /-- `ModuleNotFoundError`, `ImportError` and `AttributeError`. -/
  | importError
  /-- Another `Exception`. -/
  | exception
  /-- A `BaseException` that is not an `Exception`, as `SystemExit`. -/
  | baseException

/-- What the module asks of the interpreter.  An object is one that is not `None`. -/
structure Interpreter (Obj Key : Type) where
  /-- `importlib.import_module(name)` -/
  importModule : Bytes → Except Raised Obj
  /-- `getattr(module, name)` -/
  getattr : Obj → Bytes → Except Raised (Option Obj)
  /-- `harvester_class.get_config_type()` -/
  getConfigType : Obj → Except Raised (Option Obj)
  /-- The names of `dataclasses.fields(config_class)`. -/
  fields : Obj → Except Raised (List Bytes)
  /-- `config_class(**params)` -/
  newConfig : Obj → List (Bytes × PyValue) → Except Raised Obj
  /-- `harvester_class(name, config_obj)` -/
  newHarvester : Obj → PyValue → Obj → Except Raised Obj
  /-- The key a value is in a `dict`; a `list` or a `dict` cannot be one. -/
  key : PyValue → Option Key
  /-- `await harvester.start()`, of the harvester made of the definition with this place. -/
  start : ℕ → Obj → Except Raised Unit

/-- A definition: what its `dict` has for the keys that are looked up. -/
structure DefinitionDict where
  type : Option Bytes
  name : Option PyValue
  config : Option PyValue

/-- `config.get("name", type_)`. -/
def DefinitionDict.named (config : DefinitionDict) : PyValue :=
  config.name.getD (.str (config.type.getD []))

/-- `config.get("config", {})`. -/
def DefinitionDict.data (config : DefinitionDict) : PyValue := config.config.getD (.dict [])

/-- `_NATIVE_TYPES`. -/
def nativeTypes : List Bytes := [lit "FileHarvester", lit "loglite.harvesters.FileHarvester"]

/-- The character `'.'`. -/
def dot : UInt8 := 46

/-- `s.rsplit(".", 1)`, if that has two parts. -/
def rsplitDot : Bytes → Option (Bytes × Bytes)
  | [] => none
  | b :: s =>
    match rsplitDot s with
    | some (before, after) => some (b :: before, after)
    | none => if b = dot then some ([], s) else none

/-! ### The functions of the module -/

/-- A harvester, and the place of its definition. -/
structure LoadedHarvester (Obj : Type) where
  entry : ℕ
  harvester : Obj

/-- `HarvesterManager.harvesters`. -/
abbrev Harvesters (Obj Key : Type) := List (Key × LoadedHarvester Obj)

/-- Why a definition is skipped. -/
inductive Skipped where
  /-- `Harvester definition is missing 'type', skipping` -/
  | missingType
  /-- It is handled by the C++ core. -/
  | native
  /-- `Failed to import harvester class: …` -/
  | notImported
  /-- `Harvester … has no config type, skipping` -/
  | noConfigType
  /-- `Failed to initialise harvester …` -/
  | failedToInitialise

/-- What becomes of a definition. -/
inductive Loading (Obj Key : Type) where
  | skipped (why : Skipped)
  | loaded (key : Key) (harvester : Obj)

section
variable {Obj Key : Type} (py : Interpreter Obj Key)

/-- The body of the `try` of `import_class`. -/
def Interpreter.attribute (modulePath className : Bytes) : Except Raised (Option Obj) := do
  py.getattr (← py.importModule modulePath) className

/-- `import_class`. -/
def importClass (fullyQualifiedName : Bytes) : Except Raised (Option Obj) :=
  match rsplitDot fullyQualifiedName with
  -- `ValueError`: the split has one part, and two are assigned
  | none => .error .exception
  | some (modulePath, className) =>
    match py.attribute modulePath className with
    | .error .importError => .ok none
    | r => r

/-- The body of the `try` of `load_harvesters`. -/
def initialise (harvesterClass configClass : Obj) (fieldNames : List Bytes)
    (config : DefinitionDict) : Except Raised (Key × Obj) :=
  match config.data with
  | .dict items => do
    let configObj ← py.newConfig configClass (items.filter fun item => item.1 ∈ fieldNames)
    let harvester ← py.newHarvester harvesterClass config.named configObj
    match py.key config.named with
    | some key => .ok (key, harvester)
    -- `TypeError`: unhashable
    | none => .error .exception
  -- no attribute `items`
  | _ => .error .importError

/-- The loop body of `load_harvesters` from `get_config_type` on, but for the assignment. -/
def loadImported (harvesterClass : Obj) (config : DefinitionDict) :
    Except Raised (Loading Obj Key) :=
  match py.getConfigType harvesterClass with
  | .error e => .error e
  | .ok none => .ok (.skipped .noConfigType)
  | .ok (some configClass) =>
    match py.fields configClass with
    | .error e => .error e
    | .ok fieldNames =>
      match initialise py harvesterClass configClass fieldNames config with
      | .ok (key, harvester) => .ok (.loaded key harvester)
      | .error .baseException => .error .baseException
      | .error _ => .ok (.skipped .failedToInitialise)

/-- The loop body of `load_harvesters`, but for the assignment. -/
def loadDefinition (config : DefinitionDict) : Except Raised (Loading Obj Key) :=
  match config.type with
  | none => .ok (.skipped .missingType)
  | some type =>
    if type = [] then .ok (.skipped .missingType)
    else if type ∈ nativeTypes then .ok (.skipped .native)
    else
      match importClass py type with
      | .error e => .error e
      | .ok none => .ok (.skipped .notImported)
      | .ok (some harvesterClass) => loadImported py harvesterClass config

/-- The loop of `load_harvesters` from the definition `entry` on, and what it raises. -/
def loadFrom [DecidableEq Key] (harvesters : Harvesters Obj Key) (entry : ℕ) :
    List DefinitionDict → Harvesters Obj Key × Option Raised
  | [] => (harvesters, none)
  | config :: configs =>
    match loadDefinition py config with
    | .error e => (harvesters, some e)
    | .ok (.skipped _) => loadFrom harvesters (entry + 1) configs
    | .ok (.loaded key harvester) =>
      loadFrom (Dict.set harvesters key ⟨entry, harvester⟩) (entry + 1) configs

/-- `load_harvesters` of a new manager. -/
def loadHarvesters [DecidableEq Key] (configs : List DefinitionDict) :
    Harvesters Obj Key × Option Raised :=
  loadFrom py [] 0 configs

end

/-- `start_all`: the harvesters it has started, in their order, and what it raises.  The
exception of one `start` ends the loop. -/
def startAll {Obj Key : Type} (py : Interpreter Obj Key) :
    Harvesters Obj Key → List (LoadedHarvester Obj) × Option Raised
  | [] => ([], none)
  | (_, x) :: harvesters =>
    match py.start x.entry x.harvester with
    | .error e => ([], some e)
    | .ok () =>
      let rest := startAll py harvesters
      (x :: rest.1, rest.2)

/-! ### What is in a definition -/

/-- The definition has a type that is not handled elsewhere. -/
def Considered (config : DefinitionDict) (type : Bytes) : Prop :=
  config.type = some type ∧ type ≠ [] ∧ type ∉ nativeTypes

section
variable {Obj Key : Type} (py : Interpreter Obj Key)

/-- The class named by a type can be imported. -/
def Imports (type : Bytes) (harvesterClass : Obj) : Prop :=
  ∃ modulePath className, type = modulePath ++ dot :: className ∧ dot ∉ className ∧
    py.attribute modulePath className = .ok (some harvesterClass)

/-- The class of a definition, and what is known about the configuration it wants. -/
structure Prepared (config : DefinitionDict) (harvesterClass configClass : Obj)
    (fieldNames : List Bytes) : Prop where
  imports : ∃ type, Considered config type ∧ Imports py type harvesterClass
  configType : py.getConfigType harvesterClass = .ok (some configClass)
  fields : py.fields configClass = .ok fieldNames

/-- The object of the configuration can be made. -/
def Configures (config : DefinitionDict) (harvesterClass configObj : Obj) : Prop :=
  ∃ configClass fieldNames items, Prepared py config harvesterClass configClass fieldNames ∧
    config.data = .dict items ∧
    py.newConfig configClass (items.filter fun item => item.1 ∈ fieldNames) = .ok configObj

/-- The class of a definition can be imported and constructed. -/
def Constructs (config : DefinitionDict) (harvester : Obj) : Prop :=
  ∃ harvesterClass configObj, Configures py config harvesterClass configObj ∧
    py.newHarvester harvesterClass config.named configObj = .ok harvester

/-- What a definition raises is not caught. -/
inductive Escapes (config : DefinitionDict) : Prop
  /-- The type is not a name in a module. -/
  | noDot {type : Bytes} : Considered config type → dot ∉ type → Escapes config
  /-- The import raises something else than the three exceptions that are expected. -/
  | imports {type modulePath className : Bytes} {e : Raised} : Considered config type →
      type = modulePath ++ dot :: className → dot ∉ className →
      py.attribute modulePath className = .error e → e ≠ .importError → Escapes config
  /-- What was imported has no `get_config_type`, or that raises. -/
  | configType {type : Bytes} {harvesterClass : Obj} {e : Raised} : Considered config type →
      Imports py type harvesterClass → py.getConfigType harvesterClass = .error e → Escapes config
  /-- The class of the configuration is not a `dataclass`. -/
  | fields {type : Bytes} {harvesterClass configClass : Obj} {e : Raised} :
      Considered config type → Imports py type harvesterClass →
      py.getConfigType harvesterClass = .ok (some configClass) →
      py.fields configClass = .error e → Escapes config
  /-- A constructor raises what is not an `Exception`. -/
  | newConfig {harvesterClass configClass : Obj} {fieldNames : List Bytes}
      {items : List (Bytes × PyValue)} : Prepared py config harvesterClass configClass fieldNames →
      config.data = .dict items →
      py.newConfig configClass (items.filter fun item => item.1 ∈ fieldNames) =
        .error .baseException → Escapes config
  | newHarvester {harvesterClass configObj : Obj} : Configures py config harvesterClass configObj →
      py.newHarvester harvesterClass config.named configObj = .error .baseException →
      Escapes config

variable {py}

/-! ### One definition -/

theorem rsplitDot_eq_none_iff {s : Bytes} : rsplitDot s = none ↔ dot ∉ s := by
  induction s with
  | nil => simp [rsplitDot]
  | cons b s ih =>
    rw [rsplitDot, List.mem_cons, not_or, ← ih]
    cases h : rsplitDot s with
    | none => simp [eq_comm]
    | some p => simp

theorem eq_of_rsplitDot {s before after : Bytes} (h : rsplitDot s = some (before, after)) :
    s = before ++ dot :: after ∧ dot ∉ after := by
  induction s generalizing before with
  | nil => cases h
  | cons b s ih =>
    rw [rsplitDot] at h
    split at h
    · next before' after' hs =>
      cases h
      obtain ⟨heq, hafter⟩ := ih hs
      exact ⟨congrArg (b :: ·) heq, hafter⟩
    · next hs =>
      split at h
      · next hb =>
        cases h
        exact ⟨by rw [hb]; rfl, rsplitDot_eq_none_iff.mp hs⟩
      · cases h

theorem rsplitDot_append (before : Bytes) {after : Bytes} (h : dot ∉ after) :
    rsplitDot (before ++ dot :: after) = some (before, after) := by
  induction before with
  | nil =>
    rw [List.nil_append, rsplitDot, rsplitDot_eq_none_iff.mpr h]
    exact if_pos rfl
  | cons b before ih => rw [List.cons_append, rsplitDot, ih]

theorem ok_bind {α β : Type} {a : α} {f : α → Except Raised β} :
    (Except.ok a >>= f) = f a := rfl

/-- What `import_class` raises: the type is not a name in a module, or the import raises
something that is not expected. -/
theorem importClass_eq_error_iff {type : Bytes} {e : Raised} : importClass py type = .error e ↔
    (dot ∉ type ∧ e = .exception) ∨ ∃ modulePath className,
      type = modulePath ++ dot :: className ∧ dot ∉ className ∧
        py.attribute modulePath className = .error e ∧ e ≠ .importError := by
  constructor
  · intro h
    unfold importClass at h
    split at h
    · next hsplit =>
      cases h
      exact .inl ⟨rsplitDot_eq_none_iff.mp hsplit, rfl⟩
    · next modulePath className hsplit =>
      obtain ⟨heq, hdot⟩ := eq_of_rsplitDot hsplit
      refine .inr ⟨modulePath, className, heq, hdot, ?_⟩
      split at h
      · cases h
      · next hne => exact ⟨h, fun he => hne (h.trans (congrArg _ he))⟩
  · rintro (⟨hdot, rfl⟩ | ⟨modulePath, className, rfl, hdot, hattr, hne⟩)
    · rw [importClass, rsplitDot_eq_none_iff.mpr hdot]
    · rw [importClass, rsplitDot_append modulePath hdot]
      dsimp only
      rw [hattr]
      cases e with
      | importError => exact absurd rfl hne
      | exception | baseException => rfl

/-- What `import_class` returns, if it is not `None`. -/
theorem importClass_eq_some_iff {type : Bytes} {harvesterClass : Obj} :
    importClass py type = .ok (some harvesterClass) ↔ Imports py type harvesterClass := by
  constructor
  · intro h
    unfold importClass at h
    split at h
    · cases h
    · next modulePath className hsplit =>
      obtain ⟨heq, hdot⟩ := eq_of_rsplitDot hsplit
      refine ⟨modulePath, className, heq, hdot, ?_⟩
      split at h
      · cases h
      · exact h
  · rintro ⟨modulePath, className, rfl, hdot, hattr⟩
    rw [importClass, rsplitDot_append modulePath hdot]
    dsimp only
    rw [hattr]

/-- The body of the `try` gets to its end. -/
theorem initialise_eq_ok_iff {harvesterClass configClass : Obj} {fieldNames : List Bytes}
    {config : DefinitionDict} {key : Key} {harvester : Obj} :
    initialise py harvesterClass configClass fieldNames config = .ok (key, harvester) ↔
      ∃ items configObj, config.data = .dict items ∧
        py.newConfig configClass (items.filter fun item => item.1 ∈ fieldNames) = .ok configObj ∧
        py.newHarvester harvesterClass config.named configObj = .ok harvester ∧
        py.key config.named = some key := by
  constructor
  · intro h
    unfold initialise at h
    split at h
    · next items hdata =>
      cases hconfig : py.newConfig configClass (items.filter fun item => item.1 ∈ fieldNames) with
      | error e => rw [hconfig] at h; cases h
      | ok configObj =>
        cases hharvester : py.newHarvester harvesterClass config.named configObj with
        | error e => rw [hconfig, ok_bind, hharvester] at h; cases h
        | ok harvester' =>
          rw [hconfig, ok_bind, hharvester, ok_bind] at h
          split at h
          · next hkey =>
            cases h
            exact ⟨items, configObj, hdata, hconfig, hharvester, hkey⟩
          · cases h
    · cases h
  · rintro ⟨items, configObj, hdata, hconfig, hharvester, hkey⟩
    simp only [initialise, hdata, hconfig, hharvester, hkey, ok_bind]

/-- What gets out of the `try`. -/
theorem initialise_escapes_iff {harvesterClass configClass : Obj} {fieldNames : List Bytes}
    {config : DefinitionDict} :
    initialise py harvesterClass configClass fieldNames config = .error .baseException ↔
      ∃ items, config.data = .dict items ∧
        (py.newConfig configClass (items.filter fun item => item.1 ∈ fieldNames) =
            .error .baseException ∨
          ∃ configObj,
            py.newConfig configClass (items.filter fun item => item.1 ∈ fieldNames) =
              .ok configObj ∧
            py.newHarvester harvesterClass config.named configObj = .error .baseException) := by
  constructor
  · intro h
    unfold initialise at h
    split at h
    · next items hdata =>
      refine ⟨items, hdata, ?_⟩
      cases hconfig : py.newConfig configClass (items.filter fun item => item.1 ∈ fieldNames) with
      | error e =>
        rw [hconfig] at h
        cases h
        exact .inl rfl
      | ok configObj =>
        refine .inr ⟨configObj, rfl, ?_⟩
        cases hharvester : py.newHarvester harvesterClass config.named configObj with
        | error e =>
          rw [hconfig, ok_bind, hharvester] at h
          cases h
          rfl
        | ok harvester =>
          rw [hconfig, ok_bind, hharvester, ok_bind] at h
          split at h <;> cases h
    · cases h
  · rintro ⟨items, hdata, hconfig | ⟨configObj, hconfig, hharvester⟩⟩
    · simp only [initialise, hdata, hconfig]
      rfl
    · simp only [initialise, hdata, hconfig, ok_bind, hharvester]
      rfl

/-- A definition whose class is imported. -/
theorem loadDefinition_of_imports {config : DefinitionDict} {type : Bytes} {harvesterClass : Obj}
    (h : Considered config type) (himports : Imports py type harvesterClass) :
    loadDefinition py config = loadImported py harvesterClass config := by
  obtain ⟨htype, hne, hpython⟩ := h
  simp only [loadDefinition, htype, if_neg hne, if_neg hpython,
    importClass_eq_some_iff.mpr himports]

/-- A definition whose import raises. -/
theorem loadDefinition_of_error {config : DefinitionDict} {type : Bytes} {e : Raised}
    (h : Considered config type) (himport : importClass py type = .error e) :
    loadDefinition py config = .error e := by
  obtain ⟨htype, hne, hpython⟩ := h
  simp only [loadDefinition, htype, if_neg hne, if_neg hpython, himport]

/-- A definition that gets to the `try`. -/
theorem loadDefinition_of_prepared {config : DefinitionDict} {harvesterClass configClass : Obj}
    {fieldNames : List Bytes} (h : Prepared py config harvesterClass configClass fieldNames) :
    loadDefinition py config =
      match initialise py harvesterClass configClass fieldNames config with
      | .ok (key, harvester) => .ok (.loaded key harvester)
      | .error .baseException => .error .baseException
      | .error _ => .ok (.skipped .failedToInitialise) := by
  obtain ⟨⟨type, hconsidered, himports⟩, hconfigType, hfields⟩ := h
  rw [loadDefinition_of_imports hconsidered himports]
  simp only [loadImported, hconfigType, hfields]

/-- What the loop body comes to with a class: it skips the definition, or an exception gets
out, or it goes on to the `try`. -/
theorem loadImported_cases {config : DefinitionDict} {type : Bytes} {harvesterClass : Obj}
    (h : Considered config type) (himports : Imports py type harvesterClass) :
    (∃ why, loadImported py harvesterClass config = .ok (.skipped why)) ∨
      Escapes py config ∨
      ∃ configClass fieldNames, Prepared py config harvesterClass configClass fieldNames := by
  match hconfigType : py.getConfigType harvesterClass with
  | .error e => exact .inr (.inl (.configType h himports hconfigType))
  | .ok none => exact .inl ⟨.noConfigType, by rw [loadImported, hconfigType]⟩
  | .ok (some configClass) =>
    cases hfields : py.fields configClass with
    | error e => exact .inr (.inl (.fields h himports hconfigType hfields))
    | ok fieldNames =>
      exact .inr (.inr ⟨configClass, fieldNames, ⟨type, h, himports⟩, hconfigType, hfields⟩)

/-- **What the loop body comes to.** -/
theorem loadDefinition_cases (config : DefinitionDict) :
    (∃ why, loadDefinition py config = .ok (.skipped why)) ∨
      Escapes py config ∨
      ∃ harvesterClass configClass fieldNames,
        Prepared py config harvesterClass configClass fieldNames := by
  cases htype : config.type with
  | none => exact .inl ⟨.missingType, by rw [loadDefinition, htype]⟩
  | some type =>
    by_cases hne : type = []
    · exact .inl ⟨.missingType, by simp only [loadDefinition, htype, if_pos hne]⟩
    by_cases hpython : type ∈ nativeTypes
    · exact .inl ⟨.native, by simp only [loadDefinition, htype, if_neg hne, if_pos hpython]⟩
    have h : Considered config type := ⟨htype, hne, hpython⟩
    match himport : importClass py type with
    | .error e =>
      rcases importClass_eq_error_iff.mp himport with
        ⟨hdot, -⟩ | ⟨modulePath, className, heq, hdot, hattr, hexp⟩
      · exact .inr (.inl (.noDot h hdot))
      · exact .inr (.inl (.imports h heq hdot hattr hexp))
    | .ok none =>
      have hskip : loadDefinition py config = .ok (.skipped .notImported) := by
        simp only [loadDefinition, htype, if_neg hne, if_neg hpython, himport]
      exact .inl ⟨_, hskip⟩
    | .ok (some harvesterClass) =>
      have himports := importClass_eq_some_iff.mp himport
      rw [loadDefinition_of_imports h himports]
      rcases loadImported_cases h himports with
        hskip | hescapes | ⟨configClass, fieldNames, hprep⟩
      · exact .inl hskip
      · exact .inr (.inl hescapes)
      · exact .inr (.inr ⟨_, _, _, hprep⟩)

theorem Escapes.raises {config : DefinitionDict} (h : Escapes py config) :
    ∃ e, loadDefinition py config = .error e := by
  have hprepared : ∀ {harvesterClass configClass fieldNames},
      Prepared py config harvesterClass configClass fieldNames →
      initialise py harvesterClass configClass fieldNames config = .error .baseException →
      ∃ e, loadDefinition py config = .error e := by
    intro harvesterClass configClass fieldNames hprep hinit
    exact ⟨.baseException, by rw [loadDefinition_of_prepared hprep, hinit]⟩
  cases h with
  | noDot h hdot =>
    exact ⟨_, loadDefinition_of_error h (importClass_eq_error_iff.mpr (.inl ⟨hdot, rfl⟩))⟩
  | imports h heq hdot hattr hexp =>
    exact ⟨_, loadDefinition_of_error h
      (importClass_eq_error_iff.mpr (.inr ⟨_, _, heq, hdot, hattr, hexp⟩))⟩
  | @configType type harvesterClass e h himports hconfigType =>
    rw [loadDefinition_of_imports h himports]
    exact ⟨e, by rw [loadImported, hconfigType]⟩
  | @fields type harvesterClass configClass e h himports hconfigType hfields =>
    rw [loadDefinition_of_imports h himports]
    exact ⟨e, by simp only [loadImported, hconfigType, hfields]⟩
  | newConfig hprep hdata hconfig =>
    exact hprepared hprep (initialise_escapes_iff.mpr ⟨_, hdata, .inl hconfig⟩)
  | newHarvester hconfigures hharvester =>
    obtain ⟨configClass, fieldNames, items, hprep, hdata, hconfig⟩ := hconfigures
    exact hprepared hprep
      (initialise_escapes_iff.mpr ⟨items, hdata, .inr ⟨_, hconfig, hharvester⟩⟩)

/-- **When the loop body raises.** -/
theorem loadDefinition_raises_iff {config : DefinitionDict} :
    (∃ e, loadDefinition py config = .error e) ↔ Escapes py config := by
  refine ⟨fun ⟨e, h⟩ => ?_, Escapes.raises⟩
  rcases (loadDefinition_cases config : _ ∨ Escapes py config ∨ _) with
    ⟨why, hskip⟩ | hescapes | ⟨harvesterClass, configClass, fieldNames, hprep⟩
  · cases hskip.symm.trans h
  · exact hescapes
  · rw [loadDefinition_of_prepared hprep] at h
    split at h
    · cases h
    · next hinit =>
      obtain ⟨items, hdata, hconfig | ⟨configObj, hconfig, hharvester⟩⟩ :=
        initialise_escapes_iff.mp hinit
      · exact .newConfig hprep hdata hconfig
      · exact .newHarvester ⟨configClass, fieldNames, items, hprep, hdata, hconfig⟩ hharvester
    · cases h

/-- **What the loop body loads**: the harvester that can be made of the definition. -/
theorem loadDefinition_eq_loaded_iff {config : DefinitionDict} {key : Key} {harvester : Obj} :
    loadDefinition py config = .ok (.loaded key harvester) ↔
      Constructs py config harvester ∧ py.key config.named = some key := by
  constructor
  · intro h
    rcases (loadDefinition_cases config : _ ∨ Escapes py config ∨ _) with
      ⟨why, hskip⟩ | hescapes | ⟨harvesterClass, configClass, fieldNames, hprep⟩
    · cases hskip.symm.trans h
    · obtain ⟨e, hraises⟩ := hescapes.raises
      cases hraises.symm.trans h
    · rw [loadDefinition_of_prepared hprep] at h
      split at h
      · next hinit =>
        cases h
        obtain ⟨items, configObj, hdata, hconfig, hharvester, hkey⟩ :=
          initialise_eq_ok_iff.mp hinit
        exact ⟨⟨harvesterClass, configObj, ⟨configClass, fieldNames, items, hprep, hdata, hconfig⟩,
          hharvester⟩, hkey⟩
      · cases h
      · cases h
  · rintro ⟨⟨harvesterClass, configObj, ⟨configClass, fieldNames, items, hprep, hdata, hconfig⟩,
      hharvester⟩, hkey⟩
    rw [loadDefinition_of_prepared hprep,
      initialise_eq_ok_iff.mpr ⟨items, configObj, hdata, hconfig, hharvester, hkey⟩]

/-! ### All definitions -/

section
variable (py)

/-- What a definition assigns. -/
def assignment (config : DefinitionDict × ℕ) : Option (Key × LoadedHarvester Obj) :=
  match loadDefinition py config.1 with
  | .ok (.loaded key harvester) => some (key, ⟨config.2, harvester⟩)
  | _ => none

/-- The assignments of a list of definitions. -/
def assignments (entry : ℕ) (configs : List DefinitionDict) :
    List (Key × LoadedHarvester Obj) :=
  (configs.zipIdx entry).filterMap (assignment py)

end

theorem assignment_eq_some_iff {config : DefinitionDict} {i : ℕ} {key : Key}
    {x : LoadedHarvester Obj} : assignment py (config, i) = some (key, x) ↔
      (Constructs py config x.harvester ∧ py.key config.named = some key) ∧ x.entry = i := by
  rw [← loadDefinition_eq_loaded_iff]
  unfold assignment
  constructor
  · intro h
    split at h
    · next hload =>
      cases h
      exact ⟨hload, rfl⟩
    · cases h
  · rintro ⟨hload, rfl⟩
    simp only [hload]

/-- The assignments are those of the definitions a harvester can be made of. -/
theorem mem_assignments_iff {configs : List DefinitionDict} {key : Key}
    {x : LoadedHarvester Obj} : (key, x) ∈ assignments py 0 configs ↔
      ∃ config, configs[x.entry]? = some config ∧ Constructs py config x.harvester ∧
        py.key config.named = some key := by
  unfold assignments
  rw [List.mem_filterMap]
  constructor
  · rintro ⟨⟨config, i⟩, hmem, hassign⟩
    obtain ⟨hconstructs, rfl⟩ := assignment_eq_some_iff.mp hassign
    exact ⟨config, List.mk_mem_zipIdx_iff_getElem?.mp hmem, hconstructs⟩
  · rintro ⟨config, hget, hconstructs⟩
    exact ⟨(config, x.entry), List.mk_mem_zipIdx_iff_getElem?.mpr hget,
      assignment_eq_some_iff.mpr ⟨hconstructs, rfl⟩⟩

/-- No two assignments are of the same harvester. -/
theorem nodup_assignments (configs : List DefinitionDict) :
    ((assignments py 0 configs).map Prod.snd).Nodup := by
  have hplaces : (configs.zipIdx 0).Pairwise fun a b => a.2 < b.2 := by
    rw [← List.pairwise_map (f := Prod.snd), List.zipIdx_map_snd]
    exact List.pairwise_lt_range'
  unfold List.Nodup assignments
  rw [List.pairwise_map, List.pairwise_filterMap]
  refine hplaces.imp fun hlt x hx y hy heq => ?_
  have hentry : ∀ {a : DefinitionDict × ℕ} {x : Key × LoadedHarvester Obj},
      assignment py a = some x → x.2.entry = a.2 :=
    fun h => (assignment_eq_some_iff.mp h).2
  have hentries := congrArg LoadedHarvester.entry heq
  rw [hentry hx, hentry hy] at hentries
  exact hlt.ne hentries

variable (py) in
/-- The names of the definitions that work are fit for a `dict`. -/
structure NamesFit (configs : List DefinitionDict) : Prop where
  hashable : ∀ config ∈ configs, ∀ harvester, Constructs py config harvester →
    ∃ key, py.key config.named = some key
  distinct : configs.Pairwise fun a b => ∀ g h, Constructs py a g → Constructs py b h →
    py.key a.named ≠ py.key b.named

/-- The keys of the assignments. -/
theorem nodup_keys_assignments_iff {configs : List DefinitionDict}
    (hhashable : ∀ config ∈ configs, ∀ harvester, Constructs py config harvester →
      ∃ key, py.key config.named = some key) :
    ((assignments py 0 configs).map Prod.fst).Nodup ↔
      configs.Pairwise fun a b => ∀ g h, Constructs py a g → Constructs py b h →
        py.key a.named ≠ py.key b.named := by
  have hfst : configs = (configs.zipIdx 0).map Prod.fst := (List.zipIdx_map_fst 0 configs).symm
  rw [iff_comm]
  nth_rewrite 1 [hfst]
  unfold List.Nodup assignments
  rw [List.pairwise_map, List.pairwise_map, List.pairwise_filterMap]
  refine List.Pairwise.iff_of_mem fun {a b} ha hb =>
    ⟨fun h x hx y hy heq => ?_, fun h g g' hg hg' => ?_⟩
  · obtain ⟨⟨hconstructs, hkey⟩, -⟩ := assignment_eq_some_iff.mp hx
    obtain ⟨⟨hconstructs', hkey'⟩, -⟩ := assignment_eq_some_iff.mp hy
    exact h _ _ hconstructs hconstructs' (hkey.trans (heq ▸ hkey'.symm))
  · obtain ⟨key, hkey⟩ := hhashable a.1 (List.fst_mem_of_mem_zipIdx ha) g hg
    obtain ⟨key', hkey'⟩ := hhashable b.1 (List.fst_mem_of_mem_zipIdx hb) g' hg'
    have hassign : assignment py a = some (key, ⟨a.2, g⟩) :=
      assignment_eq_some_iff.mpr ⟨⟨hg, hkey⟩, rfl⟩
    have hassign' : assignment py b = some (key', ⟨b.2, g'⟩) :=
      assignment_eq_some_iff.mpr ⟨⟨hg', hkey'⟩, rfl⟩
    rw [hkey, hkey']
    exact fun heq => h _ hassign _ hassign' (Option.some.inj heq)

/-- What is started is there, and its start returns. -/
theorem mem_startAll {harvesters : Harvesters Obj Key} {x : LoadedHarvester Obj}
    (h : x ∈ (startAll py harvesters).1) :
    x ∈ harvesters.map Prod.snd ∧ py.start x.entry x.harvester = .ok () := by
  induction harvesters with
  | nil => exact absurd h List.not_mem_nil
  | cons p harvesters ih =>
    obtain ⟨key, y⟩ := p
    rw [startAll] at h
    split at h
    · exact absurd h List.not_mem_nil
    · next hstart =>
      rcases List.mem_cons.mp h with rfl | h
      · exact ⟨List.mem_cons_self, hstart⟩
      · obtain ⟨hmem, hok⟩ := ih h
        exact ⟨List.mem_cons_of_mem _ hmem, hok⟩

/-- If every start returns, all are started. -/
theorem startAll_eq {harvesters : Harvesters Obj Key}
    (h : ∀ p ∈ harvesters, py.start p.2.entry p.2.harvester = .ok ()) :
    startAll py harvesters = (harvesters.map Prod.snd, none) := by
  induction harvesters with
  | nil => rfl
  | cons p harvesters ih =>
    obtain ⟨hstart, hrest⟩ := List.forall_mem_cons.mp h
    obtain ⟨key, x⟩ := p
    rw [startAll, hstart, ih hrest]
    rfl

section
variable [DecidableEq Key]

/-- The loop, if nothing gets out of it. -/
theorem loadFrom_eq {configs : List DefinitionDict} (h : ∀ config ∈ configs, ¬ Escapes py config)
    (harvesters : Harvesters Obj Key) (entry : ℕ) :
    loadFrom py harvesters entry configs =
      (Dict.assignAll harvesters (assignments py entry configs), none) := by
  induction configs generalizing harvesters entry with
  | nil => rfl
  | cons config configs ih =>
    obtain ⟨hconfig, hconfigs⟩ := List.forall_mem_cons.mp h
    rw [← loadDefinition_raises_iff] at hconfig
    rw [loadFrom]
    cases hload : loadDefinition py config with
    | error e => exact absurd ⟨e, hload⟩ hconfig
    | ok o =>
      cases o with
      | skipped why =>
        have hnone : assignment py (config, entry) = none := by simp only [assignment, hload]
        dsimp only
        rw [ih hconfigs, assignments, assignments, List.zipIdx_cons,
          List.filterMap_cons_none hnone]
      | loaded key harvester =>
        have hsome : assignment py (config, entry) = some (key, ⟨entry, harvester⟩) := by
          simp only [assignment, hload]
        dsimp only
        rw [ih hconfigs, assignments, assignments, List.zipIdx_cons,
          List.filterMap_cons_some hsome, Dict.assignAll_cons]

/-- An exception of one definition ends the loop. -/
theorem loadFrom_raises {configs : List DefinitionDict} {config : DefinitionDict}
    (hmem : config ∈ configs) (h : Escapes py config) (harvesters : Harvesters Obj Key)
    (entry : ℕ) : (loadFrom py harvesters entry configs).2 ≠ none := by
  induction configs generalizing harvesters entry with
  | nil => exact absurd hmem List.not_mem_nil
  | cons config' configs ih =>
    rcases List.mem_cons.mp hmem with rfl | htail
    · obtain ⟨e, hraises⟩ := h.raises
      rw [loadFrom, hraises]
      exact Option.some_ne_none e
    · rw [loadFrom]
      split
      · exact Option.some_ne_none _
      · exact ih htail _ _
      · exact ih htail _ _

/-! ### The whole -/

variable (py) in
/-- One bad definition does not affect the others. -/
structure LoadsAll (configs : List DefinitionDict) : Prop where
  /-- `load_harvesters` does not raise. -/
  returns : (loadHarvesters py configs).2 = none
  /-- A harvester that can be made of a definition is started. -/
  present : ∀ i config harvester, configs[i]? = some config → Constructs py config harvester →
    ⟨i, harvester⟩ ∈ (startAll py (loadHarvesters py configs).1).1
  /-- There are no others. -/
  skipped : ∀ p ∈ (loadHarvesters py configs).1, ∃ config,
    configs[p.2.entry]? = some config ∧ Constructs py config p.2.harvester

variable (py) in
/-- The harvesters that can be made of the definitions can be started. -/
def Starts (configs : List DefinitionDict) : Prop :=
  ∀ i config harvester, configs[i]? = some config → Constructs py config harvester →
    py.start i harvester = .ok ()

/-- A harvester that is there was assigned. -/
theorem LoadsAll.assigned {py : Interpreter Obj Key} {configs : List DefinitionDict}
    (h : LoadsAll py configs) (hescapes : ∀ config ∈ configs, ¬ Escapes py config) {i : ℕ}
    {config : DefinitionDict} {harvester : Obj} (hget : configs[i]? = some config)
    (hconstructs : Constructs py config harvester) :
    ∃ key, py.key config.named = some key ∧
      (key, ⟨i, harvester⟩) ∈ Dict.assignAll [] (assignments py 0 configs) := by
  have hload : (loadHarvesters py configs).1 = Dict.assignAll [] (assignments py 0 configs) := by
    rw [loadHarvesters, loadFrom_eq hescapes]
  have hstarted := (mem_startAll (h.present i config harvester hget hconstructs)).1
  obtain ⟨⟨key, x⟩, hmem, rfl⟩ := List.mem_map.mp hstarted
  rw [hload] at hmem
  have hassigned := (Dict.mem_assignAll hmem).resolve_left List.not_mem_nil
  obtain ⟨config', hget', -, hkey⟩ := mem_assignments_iff.mp hassigned
  obtain rfl : config' = config := Option.some.inj (hget'.symm.trans hget)
  exact ⟨key, hkey, hmem⟩

/-- **When one bad definition does not affect the others**: none of them raises what is not
caught, those that work have different names, and their harvesters can be started. -/
theorem loads_all_iff (py : Interpreter Obj Key) (configs : List DefinitionDict) :
    LoadsAll py configs ↔
      (∀ config ∈ configs, ¬ Escapes py config) ∧ NamesFit py configs ∧ Starts py configs := by
  constructor
  · intro h
    have hescapes : ∀ config ∈ configs, ¬ Escapes py config := fun config hmem hesc =>
      loadFrom_raises hmem hesc [] 0 h.returns
    have hhashable : ∀ config ∈ configs, ∀ harvester, Constructs py config harvester →
        ∃ key, py.key config.named = some key := by
      intro config hmem harvester hconstructs
      obtain ⟨i, hget⟩ := List.mem_iff_getElem?.mp hmem
      obtain ⟨key, hkey, -⟩ := h.assigned hescapes hget hconstructs
      exact ⟨key, hkey⟩
    refine ⟨hescapes, ⟨hhashable, (nodup_keys_assignments_iff hhashable).mp ?_⟩, ?_⟩
    · rw [← Dict.forall_mem_assignAll_iff (nodup_assignments configs)]
      rintro ⟨key, x⟩ hassigned
      obtain ⟨config, hget, hconstructs, hkey⟩ := mem_assignments_iff.mp hassigned
      obtain ⟨key', hkey', hmem⟩ := h.assigned hescapes hget hconstructs
      obtain rfl : key' = key := Option.some.inj (hkey'.symm.trans hkey)
      exact hmem
    · intro i config harvester hget hconstructs
      exact (mem_startAll (h.present i config harvester hget hconstructs)).2
  · rintro ⟨hescapes, ⟨hhashable, hdistinct⟩, hstarts⟩
    have hkeys := (nodup_keys_assignments_iff hhashable).mpr hdistinct
    have hload : loadHarvesters py configs = (assignments py 0 configs, none) := by
      rw [loadHarvesters, loadFrom_eq hescapes, Dict.assignAll_eq_append hkeys]
      rfl
    have hstarted : startAll py (assignments py 0 configs) =
        ((assignments py 0 configs).map Prod.snd, none) := by
      apply startAll_eq
      rintro ⟨key, x⟩ hmem
      obtain ⟨config, hget, hconstructs, -⟩ := mem_assignments_iff.mp hmem
      exact hstarts x.entry config x.harvester hget hconstructs
    refine ⟨by rw [hload], fun i config harvester hget hconstructs => ?_, ?_⟩
    · obtain ⟨key, hkey⟩ := hhashable config (List.mem_of_getElem? hget) harvester hconstructs
      rw [hload, hstarted]
      exact List.mem_map.mpr ⟨(key, ⟨i, harvester⟩),
        mem_assignments_iff.mpr ⟨config, hget, hconstructs, hkey⟩, rfl⟩
    · rw [hload]
      rintro ⟨key, x⟩ hmem
      obtain ⟨config, hget, hconstructs, -⟩ := mem_assignments_iff.mp hmem
      exact ⟨config, hget, hconstructs⟩

end

end

/-- The key of a string. -/
def stringKey : PyValue → Option Bytes
  | .str s => some s
  | _ => none

/-- An interpreter with one class, that of the tests, which takes no configuration.  Objects
are their names. -/
def mockInterpreter : Interpreter Bytes Bytes where
  importModule name :=
    if name = lit "tests.test_harvesters" then .ok name else .error .importError
  getattr _ name :=
    if name = lit "MockHarvester" then .ok (some name) else .error .importError
  getConfigType _ := .ok (some (lit "BaseHarvesterConfig"))
  fields _ := .ok []
  newConfig configClass _ := .ok configClass
  newHarvester harvesterClass _ _ := .ok harvesterClass
  key := stringKey
  start _ _ := .ok ()

/-- A definition that works. -/
def mockDefinition : DefinitionDict where
  type := some (lit "tests.test_harvesters.MockHarvester")
  name := some (.str (lit "mock"))
  config := none

/-- A type without a dot keeps all definitions behind it from being loaded. -/
theorem type_without_dot_raises : ¬ LoadsAll mockInterpreter
    [⟨some (lit "MockHarvester"), some (.str (lit "bad")), none⟩, mockDefinition] := by
  intro h
  have hconsidered : Considered ⟨some (lit "MockHarvester"), some (.str (lit "bad")), none⟩
      (lit "MockHarvester") := ⟨rfl, by decide, by decide⟩
  have hescapes : Escapes mockInterpreter _ := .noDot hconsidered (by decide)
  exact loadFrom_raises List.mem_cons_self hescapes [] 0 h.returns

end LogLite
