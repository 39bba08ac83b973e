import LogLite.Config.Members

/-!
# Integer settings

An integral member is read as a 64-bit integer and then converted to its type with a
`static_cast`.  The conversion wraps around, and `std::stoll` does not look at what follows
the digits, so a setting may be loaded as another number than the one that is written.

## Main definitions

* `SettingText` — the text of a variable that is an integer, blanks before it left aside.
* `YamlLib.ExactInt64` — `as<int64_t>` reads the integers of 64 bits, and nothing else.
* `GivenInteger` — the integer that is given for a member.
* `SettingsKept` — the integral members that are given have the integers given for them,
  if the configuration is loaded at all.
* `MemberRefused` — what is given for a member cannot be converted.

## Main results

* `settings_kept_iff` — **the integers are kept exactly if something is refused, or each
  given integer is one, and one of the type of its member.**
-/

namespace LogLite

/-- The text is an integer, after blanks. -/
def SettingText (s : Bytes) (n : ℤ) : Prop :=
  ∃ blanks text, s = blanks ++ text ∧ blanks.all isSpace = true ∧ IntegerText text n

/-- `std::stoll` of an integer after blanks. -/
theorem SettingText.stoll_eq {s : Bytes} {n : ℤ} (h : SettingText s n) :
    stoll s = if fitsInt64 n then .ok n else .error (.outOfRange (lit "stoll")) := by
  obtain ⟨blanks, text, rfl, hblanks, htext⟩ := h
  have hscan : scanInteger (blanks ++ text) = some (n, []) :=
    scanInteger_eq_some_iff.mpr ⟨blanks, text, by simp, hblanks, htext, by simp [NoDigitFirst]⟩
  rw [stoll, hscan]

section
variable {Node : Type} (lib : YamlLib Node) (literal : Node → Option ℤ)

/-- `as<int64_t>` gives the integer of a node, if it has one and this is one of 64 bits. -/
def YamlLib.ExactInt64 : Prop :=
  ∀ node n, lib.asInt64 node = .ok n ↔ literal node = some n ∧ fitsInt64 n = true

/-- Something is given for a member. -/
def IsGiven (text : Option Bytes) (child : Except Exception (Option Node)) : Prop :=
  text.isSome = true ∨ ∃ node, child = .ok (some node)

/-- The integer that is given for a member: by its variable, else by its YAML node. -/
def GivenInteger (text : Option Bytes) (child : Except Exception (Option Node)) (n : ℤ) : Prop :=
  match text, child with
  | some s, _ => SettingText s n
  | none, .ok (some node) => literal node = some n
  | none, _ => False

/-- The integer of an integral member. -/
def integerOf : (t : FieldType) → t.Value → Option ℤ
  | .integral _, v => some v.1
  | _, _ => none

/-- An integral member that is given has the integer given for it. -/
def SettingsKept (cfg : Config) (env : StringMap) (yaml : Node) : Prop :=
  ∀ cfg', loadRootConfig lib cfg env yaml = .ok cfg' →
    ∀ (m : ConfigMember) (t : IntType), m.type = .integral t →
      IsGiven (env m.name) (lib.child yaml m.name) →
        ∃ n, GivenInteger literal (env m.name) (lib.child yaml m.name) n ∧
          integerOf m.type (cfg' m) = some n

/-- What is given for a member cannot be converted to its type. -/
def MemberRefused (env : StringMap) (yaml : Node) (m : ConfigMember) : Prop :=
  ∃ e, findMember lib env yaml m = .error e

/-- Each integral member that is given is given an integer, and one of its type. -/
def GivenInRange (env : StringMap) (yaml : Node) : Prop :=
  ∀ (m : ConfigMember) (t : IntType), m.type = .integral t →
    IsGiven (env m.name) (lib.child yaml m.name) →
      ∃ n, GivenInteger literal (env m.name) (lib.child yaml m.name) n ∧ t.Holds n

variable {lib literal}

/-- A value that is found is the given integer exactly if that is one of the type. -/
theorem findValue_integral {T : FieldType} {t : IntType} (hT : T = .integral t)
    (hlib : lib.ExactInt64 literal) {text : Option Bytes} {child : Except Exception (Option Node)}
    {v : Option T.Value} {r : T.Value} (hfind : findValue lib T text child = .ok v) {n : ℤ}
    (hgiven : GivenInteger literal text child n) :
    integerOf T (v.getD r) = some n ↔ t.Holds n := by
  subst hT
  rw [← IntType.cast_val_eq_iff]
  cases text with
  | some s =>
    have hstoll : ((stoll s).map t.cast).map some = .ok v := hfind
    rw [SettingText.stoll_eq hgiven] at hstoll
    split at hstoll
    · cases hstoll
      exact Option.some_inj
    · cases hstoll
  | none =>
    cases child with
    | error e => exact hgiven.elim
    | ok child =>
      cases child with
      | none => exact hgiven.elim
      | some node =>
        have hyaml : ((lib.asInt64 node).map t.cast).map some = .ok v := hfind
        have hliteral : literal node = some n := hgiven
        cases hint : lib.asInt64 node with
        | error e =>
          rw [hint] at hyaml
          cases hyaml
        | ok k =>
          rw [hint] at hyaml
          cases hyaml
          obtain ⟨hk, -⟩ := (hlib node k).mp hint
          obtain rfl : k = n := Option.some_inj.mp (hk.symm.trans hliteral)
          exact Option.some_inj

/-- **The integers are kept exactly if something is refused, or each given integer is one of
the type of its member.** -/
theorem settings_kept_iff (hlib : lib.ExactInt64 literal) (cfg : Config) (environ : List Bytes)
    (yaml : Node) :
    SettingsKept lib literal cfg (readEnvOverrides environ) yaml ↔
      (∃ m, MemberRefused lib (readEnvOverrides environ) yaml m) ∨
        GivenInRange lib literal (readEnvOverrides environ) yaml := by
  generalize readEnvOverrides environ = env
  -- what is found for an integral member is the given integer if that is one of the type
  have hmember : ∀ (m : ConfigMember) (t : IntType) (v : Option m.type.Value) (n : ℤ),
      m.type = .integral t → findMember lib env yaml m = .ok v →
        GivenInteger literal (env m.name) (lib.child yaml m.name) n →
          (integerOf m.type (v.getD (cfg m)) = some n ↔ t.Holds n) :=
    fun m t v n hm hfind hgiven => findValue_integral hm hlib hfind hgiven
  constructor
  · intro hkept
    cases hload : loadRootConfig lib cfg env yaml with
    | error e =>
      obtain ⟨m, -, hm⟩ := Memberwise.exists_error_of_loadAll hload
      exact .inl ⟨m, e, hm⟩
    | ok cfg' =>
      refine .inr fun m t hm hgiven => ?_
      obtain ⟨n, hn, hval⟩ := hkept cfg' hload m t hm hgiven
      obtain ⟨v, hfind, hv⟩ := (loadRootConfig_eq_ok_iff lib).mp hload m
      rw [hv] at hval
      exact ⟨n, hn, (hmember m t v n hm hfind hn).mp hval⟩
  · intro h cfg' hload m t hm hgiven
    have hfound := (loadRootConfig_eq_ok_iff lib).mp hload
    rcases h with ⟨m', e, herror⟩ | hrange
    · obtain ⟨v, hfind, -⟩ := hfound m'
      rw [herror] at hfind
      cases hfind
    · obtain ⟨n, hn, hholds⟩ := hrange m t hm hgiven
      obtain ⟨v, hfind, hv⟩ := hfound m
      exact ⟨n, hn, hv ▸ (hmember m t v n hm hfind hn).mpr hholds⟩

end

/-! ### Documents that are one map -/

/-- A plain scalar, or a map of plain scalars. -/
inductive FlatNode where
  | scalar (s : Bytes)
  | map (entries : List (Bytes × Bytes))

/-- The integer a scalar denotes. -/
def FlatNode.literal : FlatNode → Option ℤ
  | scalar s => integerLiteral s
  | map _ => none

/-- `node[key]`. -/
def FlatNode.child : FlatNode → Bytes → Except Exception (Option FlatNode)
  | scalar _, _ => .error (.runtimeError (lit "operator[] call on a scalar"))
  | map entries, key => .ok ((entries.lookup key).map scalar)

/-- The entries of a map. -/
def FlatNode.entries : FlatNode → Option (List (FlatNode × FlatNode))
  | scalar _ => none
  | map entries => some (entries.map fun e => (scalar e.1, scalar e.2))

/-- The text of a scalar. -/
def FlatNode.text : FlatNode → Except Exception Bytes
  | scalar s => .ok s
  | map _ => .error (.badConversion (lit "bad conversion"))

/-- A conversion that may not succeed. -/
def converted {α : Type} : Option α → Except Exception α
  | some a => .ok a
  | none => .error (.badConversion (lit "bad conversion"))

/-- `yaml-cpp` on such documents. -/
def flatYaml : YamlLib FlatNode where
  child := FlatNode.child
  entries := FlatNode.entries
  elements _ := none
  asString := FlatNode.text
  asBool node :=
    node.text.bind fun s =>
      converted (([(lit "true", true), (lit "false", false)] : List (Bytes × Bool)).lookup s)
  asInt64 node := converted (node.literal.filter fitsInt64)

theorem exactInt64_flatYaml : flatYaml.ExactInt64 FlatNode.literal := by
  intro node n
  rw [← Option.filter_eq_some_iff]
  show converted (node.literal.filter fitsInt64) = _ ↔ _
  cases node.literal.filter fitsInt64 <;> simp [converted]

theorem settings_kept_port :
    SettingsKept flatYaml FlatNode.literal Config.default
      (readEnvOverrides [lit "LOGLITE_PORT=8080"]) (.map [(lit "port", lit "70000")]) := by
  refine (settings_kept_iff exactInt64_flatYaml Config.default [lit "LOGLITE_PORT=8080"]
    (.map [(lit "port", lit "70000")])).mpr (.inr ?_)
  intro m t hm hgiven
  cases m with
  | port =>
    obtain rfl : IntType.uint16 = t := by simpa [ConfigMember.type] using hm
    exact ⟨8080, ⟨[], lit "8080", by decide, by decide, .digits (by decide) (by decide)⟩,
      by decide, by decide⟩
  | _ =>
    rcases hgiven with htext | ⟨node, hnode⟩
    · exact absurd htext (by decide)
    · cases hnode

/-- Port 70000 is loaded as 4464. -/
theorem port_wraps :
    ¬ ∀ (environ : List Bytes) (yaml : FlatNode), SettingsKept flatYaml FlatNode.literal
      Config.default (readEnvOverrides environ) yaml := by
  intro h
  have hload : (loadRootConfig flatYaml Config.default
      (readEnvOverrides [lit "LOGLITE_port=70000"]) (.map [])).map
        (fun cfg => integerOf _ (cfg .port)) = .ok (some 4464) := by decide
  cases hcfg : loadRootConfig flatYaml Config.default
      (readEnvOverrides [lit "LOGLITE_port=70000"]) (.map []) with
  | error e => simp [hcfg, Except.map] at hload
  | ok cfg =>
    rw [hcfg] at hload
    have hport : integerOf _ (cfg .port) = some 4464 := by simpa [Except.map] using hload
    obtain ⟨n, hn, hval⟩ := h _ _ cfg hcfg .port .uint16 rfl (.inl (by decide))
    -- the text denotes 70000
    have htext : SettingText (lit "70000") n := hn
    have hstoll : stoll (lit "70000") = .ok 70000 := by decide
    rw [htext.stoll_eq] at hstoll
    split at hstoll
    · cases hstoll
      rw [hport] at hval
      exact absurd hval (by decide)
    · cases hstoll

end LogLite
