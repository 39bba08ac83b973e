import LogLite.Base.Integer
import LogLite.Lib.Memberwise

/-!
# The members of the configuration

`load_root_config` goes through the members of `Config` that `BOOST_DESCRIBE_STRUCT` lists.
A member of a simple type is taken from the environment if a variable `LOGLITE_*` gives
it, every other one from the YAML document.  The conversions are driven by the type of the
member: `from_string` for the environment, `from_yaml` for YAML.

`yaml-cpp` is not part of the repository; what is used of it is a parameter.

## Main definitions

* `IntType` — the integral types of members; `IntType.cast` — `static_cast`.
* `FieldType`, `ConfigMember`, `Config` — the types, the members, the record.
* `readEnvOverrides` — `read_env_overrides`; `YamlLib` — `yaml-cpp`.
* `fromString`, `fromYaml`, `loadRootConfig` — the functions of the same names.

## Main results

* `IntType.cast_val_eq_iff` — a conversion keeps exactly the values of the type.
* `loadRootConfig_eq_ok_iff` — what the members of a loaded configuration are.
-/

namespace LogLite

/-! ### Integral types -/

/-- The integral types of members. -/
inductive IntType where
  | uint16
  | int32
  | int64
  deriving DecidableEq, Repr

/-- `std::numeric_limits<T>::min()`. -/
def IntType.min : IntType → ℤ
  | uint16 => 0
  | int32 => -2 ^ 31
  | int64 => -2 ^ 63

/-- `std::numeric_limits<T>::max()`. -/
def IntType.max : IntType → ℤ
  | uint16 => 2 ^ 16 - 1
  | int32 => 2 ^ 31 - 1
  | int64 => 2 ^ 63 - 1

/-- The integer is one of the type. -/
def IntType.Holds (t : IntType) (n : ℤ) : Prop := t.min ≤ n ∧ n ≤ t.max

/-- The values of the type. -/
abbrev IntType.Value (t : IntType) := {n : ℤ // t.Holds n}

/-- The integer of the type that is congruent to `n`. -/
def IntType.wrap (n : ℤ) : IntType → ℤ
  | uint16 => n % 2 ^ 16
  | int32 => n.bmod (2 ^ 32)
  | int64 => n.bmod (2 ^ 64)

theorem IntType.holds_wrap (t : IntType) (n : ℤ) : t.Holds (t.wrap n) := by
  have h32 := Int.le_bmod (x := n) (m := 2 ^ 32) (by decide)
  have h32' := Int.bmod_lt (x := n) (m := 2 ^ 32) (by decide)
  have h64 := Int.le_bmod (x := n) (m := 2 ^ 64) (by decide)
  have h64' := Int.bmod_lt (x := n) (m := 2 ^ 64) (by decide)
  cases t <;> simp only [Holds, wrap, min, max] <;> omega

/-- `static_cast<T>`. -/
def IntType.cast (t : IntType) (n : ℤ) : t.Value := ⟨t.wrap n, t.holds_wrap n⟩

/-- **A conversion keeps exactly the values of the type.** -/
theorem IntType.cast_val_eq_iff {t : IntType} {n : ℤ} : (t.cast n).1 = n ↔ t.Holds n := by
  constructor
  · intro h
    exact h ▸ (t.cast n).2
  · rintro ⟨hmin, hmax⟩
    show t.wrap n = n
    cases t <;> simp only [wrap, min, max] at *
    · exact Int.emod_eq_of_lt hmin (by omega)
    · exact Int.bmod_eq_of_le (by omega) (by omega)
    · exact Int.bmod_eq_of_le (by omega) (by omega)

/-! ### Members -/

/-- `std::map<std::string, std::string>`. -/
abbrev StringMap := Bytes → Option Bytes

/-- `m[key] = value`. -/
def StringMap.set (m : StringMap) (key value : Bytes) : StringMap :=
  Function.update m key (some value)

/-- `Config::HarvesterDef`. -/
structure HarvesterDef where
  type : Bytes
  name : Bytes
  config : StringMap

/-- `CompressionConfig`. -/
structure CompressionConfig where
  enabled : Bool
  columns : List Bytes

/-- `Migration`, as the configuration has it. -/
structure ConfigMigration where
  version : IntType.int32.Value
  rollout : List Bytes
  rollback : List Bytes

/-- The types of the members. -/
inductive FieldType where
  | string
  | bool
  | integral (t : IntType)
  | path
  | stringMap
  | compression
  | harvesters
  | migrations
  deriving DecidableEq, Repr

/-- The values of a type. -/
abbrev FieldType.Value : FieldType → Type
  | string => Bytes
  | bool => Bool
  | integral t => t.Value
  | path => Bytes
  | stringMap => StringMap
  | compression => CompressionConfig
  | harvesters => List HarvesterDef
  | migrations => List ConfigMigration

/-- The public members of `Config`. -/
inductive ConfigMember where
  | host
  | port
  | debug
  | allowOrigin
  | sqliteDir
  | dbPath
  | sqliteParams
  | dbPoolSize
  | autoRollout
  | logTableName
  | logTimestampField
  | sseLimit
  | sseDebounceMs
  | vacuumMaxDays
  | vacuumMaxSize
  | vacuumMaxSizeBytes
  | vacuumTargetSize
  | vacuumTargetSizeBytes
  | taskDiagnosticsInterval
  | taskBacklogFlushInterval
  | taskBacklogMaxSize
  | taskVacuumInterval
  | taskVacuumMaxSize
  | statsRetentionHours
  | compression
  | harvesters
  | migrations
  deriving DecidableEq, Repr

/-- The members, in the order of `BOOST_DESCRIBE_STRUCT`. -/
def ConfigMember.all : List ConfigMember :=
  [host, port, debug, allowOrigin, sqliteDir, dbPath, sqliteParams, dbPoolSize, autoRollout,
    logTableName, logTimestampField, sseLimit, sseDebounceMs, vacuumMaxDays, vacuumMaxSize,
    vacuumMaxSizeBytes, vacuumTargetSize, vacuumTargetSizeBytes, taskDiagnosticsInterval,
    taskBacklogFlushInterval, taskBacklogMaxSize, taskVacuumInterval, taskVacuumMaxSize,
    statsRetentionHours, compression, harvesters, migrations]

/-- The name of a member. -/
def ConfigMember.name : ConfigMember → Bytes
  | host => lit "host"
  | port => lit "port"
  | debug => lit "debug"
  | allowOrigin => lit "allow_origin"
  | sqliteDir => lit "sqlite_dir"
  | dbPath => lit "db_path"
  | sqliteParams => lit "sqlite_params"
  | dbPoolSize => lit "db_pool_size"
  | autoRollout => lit "auto_rollout"
  | logTableName => lit "log_table_name"
  | logTimestampField => lit "log_timestamp_field"
  | sseLimit => lit "sse_limit"
  | sseDebounceMs => lit "sse_debounce_ms"
  | vacuumMaxDays => lit "vacuum_max_days"
  | vacuumMaxSize => lit "vacuum_max_size"
  | vacuumMaxSizeBytes => lit "vacuum_max_size_bytes"
  | vacuumTargetSize => lit "vacuum_target_size"
  | vacuumTargetSizeBytes => lit "vacuum_target_size_bytes"
  | taskDiagnosticsInterval => lit "task_diagnostics_interval"
  | taskBacklogFlushInterval => lit "task_backlog_flush_interval"
  | taskBacklogMaxSize => lit "task_backlog_max_size"
  | taskVacuumInterval => lit "task_vacuum_interval"
  | taskVacuumMaxSize => lit "task_vacuum_max_size"
  | statsRetentionHours => lit "stats_retention_hours"
  | compression => lit "compression"
  | harvesters => lit "harvesters"
  | migrations => lit "migrations"

/-- The type of a member. -/
def ConfigMember.type : ConfigMember → FieldType
  | host | allowOrigin | dbPoolSize | logTableName | logTimestampField => .string
  | vacuumMaxSize | vacuumTargetSize => .string
  | debug | autoRollout => .bool
  | sqliteDir | dbPath => .path
  | sqliteParams => .stringMap
  | port => .integral .uint16
  | vacuumMaxSizeBytes | vacuumTargetSizeBytes => .integral .int64
  | sseLimit | sseDebounceMs | vacuumMaxDays | taskDiagnosticsInterval => .integral .int32
  | taskBacklogFlushInterval | taskBacklogMaxSize | taskVacuumInterval => .integral .int32
  | taskVacuumMaxSize | statsRetentionHours => .integral .int32
  | compression => .compression
  | harvesters => .harvesters
  | migrations => .migrations

/-- `Config`, as `BOOST_DESCRIBE_STRUCT` shows it: a value for each member. -/
abbrev Config := (m : ConfigMember) → m.type.Value

/-- `Config{}`. -/
def Config.default : Config
  | .host => lit "127.0.0.1"
  | .port => IntType.cast .uint16 7788
  | .debug => false
  | .allowOrigin => lit "*"
  | .sqliteDir => lit "./db"
  | .dbPath => []
  | .sqliteParams => fun _ => none
  | .dbPoolSize => lit "2"
  | .autoRollout => false
  | .logTableName => lit "Log"
  | .logTimestampField => lit "timestamp"
  | .sseLimit => IntType.cast .int32 1000
  | .sseDebounceMs => IntType.cast .int32 500
  | .vacuumMaxDays => IntType.cast .int32 3650
  | .vacuumMaxSize => lit "1TB"
  | .vacuumMaxSizeBytes => IntType.cast .int64 0
  | .vacuumTargetSize => lit "800GB"
  | .vacuumTargetSizeBytes => IntType.cast .int64 0
  | .taskDiagnosticsInterval => IntType.cast .int32 60
  | .taskBacklogFlushInterval => IntType.cast .int32 5
  | .taskBacklogMaxSize => IntType.cast .int32 200
  | .taskVacuumInterval => IntType.cast .int32 120
  | .taskVacuumMaxSize => IntType.cast .int32 5
  | .statsRetentionHours => IntType.cast .int32 24
  | .compression => ⟨false, []⟩
  | .harvesters => []
  | .migrations => []

/-! ### The environment -/

/-- `read_env_overrides`: the variables `LOGLITE_*`, by their names in lower case. -/
def readEnvOverrides (environ : List Bytes) : StringMap :=
  environ.foldl
    (fun out entry =>
      if (lit "LOGLITE_").isPrefixOf entry then
        match entry.dropWhile (· != 61) with
        | [] => out
        | _ :: value => out.set (((entry.takeWhile (· != 61)).drop 8).map lowerByte) value
      else out)
    fun _ => none

/-- `from_string`, for the types that have one. -/
def fromString : (t : FieldType) → Option (Bytes → Except Exception t.Value)
  | .string => some .ok
  | .bool => some fun s =>
    .ok ([lit "true", lit "1", lit "yes"].contains (s.map lowerByte))
  | .integral t => some fun s => (stoll s).map t.cast
  | .path => some .ok
  | _ => none

/-! ### YAML -/

/-- What is used of `yaml-cpp`. -/
structure YamlLib (Node : Type) where
  /-- `node[key]`; nothing if it is not defined. -/
  child : Node → Bytes → Except Exception (Option Node)
  /-- `node.IsMap()`, with the entries of a map. -/
  entries : Node → Option (List (Node × Node))
  /-- `node.IsSequence()`, with the elements of a sequence. -/
  elements : Node → Option (List Node)
  /-- `node.as<std::string>()`. -/
  asString : Node → Except Exception Bytes
  /-- `node.as<bool>()`. -/
  asBool : Node → Except Exception Bool
  /-- `node.as<int64_t>()`. -/
  asInt64 : Node → Except Exception ℤ

section
variable {Node : Type} (lib : YamlLib Node)

/-- `from_yaml<std::string>`: an integer is taken as its text. -/
def fromYamlString (node : Node) : Except Exception Bytes :=
  match lib.asString node with
  | .error (.badConversion _) => (lib.asInt64 node).map decimal
  | r => r

/-- `from_yaml` of an integral type. -/
def fromYamlIntegral (t : IntType) (node : Node) : Except Exception t.Value :=
  (lib.asInt64 node).map t.cast

/-- `from_yaml<StringMap>`. -/
def fromYamlStringMap (node : Node) : Except Exception StringMap :=
  ((lib.entries node).getD []).foldlM
    (fun m entry => do
      let value ← lib.asString entry.2
      let key ← lib.asString entry.1
      pure (m.set key value))
    fun _ => none

/-- `from_yaml<std::vector<E>>`. -/
def fromYamlVector {E : Type} (convert : Node → Except Exception E) (node : Node) :
    Except Exception (List E) :=
  ((lib.elements node).getD []).mapM convert

/-- One member of `load_yaml_map`: what is not defined stays as it is. -/
def loadYamlMember {F : Type} (node : Node) (name : Bytes) (convert : Node → Except Exception F)
    (old : F) : Except Exception F := do
  match ← lib.child node name with
  | none => pure old
  | some child => convert child

/-- `from_yaml<Config::HarvesterDef>`, that is `load_yaml_map` on an empty one. -/
def fromYamlHarvester (node : Node) : Except Exception HarvesterDef := do
  if (lib.entries node).isNone then return ⟨[], [], fun _ => none⟩
  let type ← loadYamlMember lib node (lit "type") (fromYamlString lib) []
  let name ← loadYamlMember lib node (lit "name") (fromYamlString lib) []
  let config ← loadYamlMember lib node (lit "config") (fromYamlStringMap lib) fun _ => none
  return ⟨type, name, config⟩

/-- `from_yaml<CompressionConfig>`. -/
def fromYamlCompression (node : Node) : Except Exception CompressionConfig := do
  if (lib.entries node).isNone then return ⟨false, []⟩
  let enabled ← loadYamlMember lib node (lit "enabled") lib.asBool false
  let columns ← loadYamlMember lib node (lit "columns")
    (fromYamlVector lib (fromYamlString lib)) []
  return ⟨enabled, columns⟩

/-- `from_yaml<Migration>`. -/
def fromYamlMigration (node : Node) : Except Exception ConfigMigration := do
  if (lib.entries node).isNone then return ⟨IntType.cast .int32 0, [], []⟩
  let version ← loadYamlMember lib node (lit "version") (fromYamlIntegral lib .int32)
    (IntType.cast .int32 0)
  let rollout ← loadYamlMember lib node (lit "rollout") (fromYamlVector lib (fromYamlString lib)) []
  let rollback ← loadYamlMember lib node (lit "rollback")
    (fromYamlVector lib (fromYamlString lib)) []
  return ⟨version, rollout, rollback⟩

/-- `from_yaml`. -/
def fromYaml : (t : FieldType) → Node → Except Exception t.Value
  | .string, node => fromYamlString lib node
  | .bool, node => lib.asBool node
  | .integral t, node => fromYamlIntegral lib t node
  | .path, node => lib.asString node
  | .stringMap, node => fromYamlStringMap lib node
  | .compression, node => fromYamlCompression lib node
  | .harvesters, node => fromYamlVector lib (fromYamlHarvester lib) node
  | .migrations, node => fromYamlVector lib (fromYamlMigration lib) node

/-! ### The loader -/

/-- The value of a type that a text of the environment or a YAML node gives: the text
comes first, if the type can be read from one. -/
def findValue (t : FieldType) (text : Option Bytes) (child : Except Exception (Option Node)) :
    Except Exception (Option t.Value) :=
  match fromString t, text with
  | some convert, some s => (convert s).map some
  | _, _ =>
    match child with
    | .error e => .error e
    | .ok none => .ok none
    | .ok (some node) => (fromYaml lib t node).map some

/-- One member of `load_root_config`. -/
def findMember (env : StringMap) (yaml : Node) (m : ConfigMember) :
    Except Exception (Option m.type.Value) :=
  findValue lib m.type (env m.name) (lib.child yaml m.name)

/-- `load_root_config`. -/
def loadRootConfig (cfg : Config) (env : StringMap) (yaml : Node) : Except Exception Config :=
  Memberwise.loadAll (findMember lib env yaml) ConfigMember.all cfg

theorem ConfigMember.nodup_all : ConfigMember.all.Nodup := by decide

theorem ConfigMember.mem_all (m : ConfigMember) : m ∈ ConfigMember.all := by
  cases m <;> decide

/-- **Each member of a loaded configuration is what was found for it, or its default.** -/
theorem loadRootConfig_eq_ok_iff {cfg cfg' : Config} {env : StringMap} {yaml : Node} :
    loadRootConfig lib cfg env yaml = .ok cfg' ↔
      ∀ m, ∃ v, findMember lib env yaml m = .ok v ∧ cfg' m = v.getD (cfg m) := by
  rw [loadRootConfig, Memberwise.loadAll_eq_ok_iff ConfigMember.nodup_all]
  constructor
  · exact fun h m => h.1 m m.mem_all
  · exact fun h => ⟨fun m _ => h m, fun m hm => absurd m.mem_all hm⟩

end

end LogLite
