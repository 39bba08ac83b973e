import LogLite.Harvest.Socket
import LogLite.Lib.Utf8
import LogLite.Query.Decode
import LogLite.Server.Backlog

/-!
# From Python to the backlog

A harvester in Python hands a `dict` to `push_to_backlog`, which makes a JSON value of it
first.  The items of a `dict` come in the order in which they were set; the members of the
JSON object are in the order of their keys.

A float is taken to be a number or an infinity, and an object to be a finite tree.  A
string with a lone surrogate has no UTF-8 and cannot be converted.

There is a backlog only while the server runs; before and after that an entry is converted
and dropped.

## Main definitions

* `PyObject`, `pyObjectToJson` — a Python object, and `PyObjectToJson`.
* `Represents`, `Convertible` — what the JSON value of an object should be, and when there
  is one.
* `pushToBacklog` — the binding.
* `Loggable`, `loggable` — the values that should be logged, and those of a connection.
* `addedLogs` — what a connection has added to the backlog.

## Main results

* `perm_assign`, `sorted_assign` — what `object[key] = value` does with a new key.
* `pyObjectToJson_eq_ok_iff` — **an object is converted if and only if all of it can be,
  and to the value that represents it.**
* `socket_logs_exact` — **the entries added are those of the loggable lines.**
-/

namespace LogLite

open Segments

/-! ### Objects -/

/-- A Python object, as `PyObjectToJson` looks at it.  `str` has its UTF-8, if it can be
encoded, and `datetime` is what `isoformat` returns. -/
inductive PyObject where
  | none
  | bool (b : Bool)
  | int (n : ℤ)
  | float (x : Real64)
  | str (utf8 : Option Bytes)
  | dict (items : List (PyObject × PyObject))
  | list (xs : List PyObject)
  | tuple (xs : List PyObject)
  | datetime (iso : Bytes)
  | other (className : Bytes)

/-- Why an object is not converted. -/
inductive ConversionError where
  | integerTooLarge
  | keyNotStr
  | notEncodable
  | unsupportedType (className : Bytes)
  | notDict

/-- The message, where it is the program's own. -/
def ConversionError.what : ConversionError → Option Bytes
  | integerTooLarge => lit "loglite._core: integer too large for JSON conversion"
  | keyNotStr => lit "loglite._core: dict keys must be str for JSON conversion"
  | unsupportedType className =>
    some (lit "loglite._core: unsupported type '" ++ className ++
      lit "' in log payload (expected None, bool, int, float, str, dict, list, tuple, or " ++
      lit "datetime types)")
  | notEncodable | notDict => none

/-- The integer is a `long long`. -/
def IsInt64 (n : ℤ) : Prop := -2 ^ 63 ≤ n ∧ n < 2 ^ 63

instance (n : ℤ) : Decidable (IsInt64 n) := inferInstanceAs (Decidable (_ ∧ _))

/-- A key of a `dict`, as a string. -/
def keyText : PyObject → Except ConversionError Bytes
  | .str (some key) => .ok key
  | .str Option.none => .error .notEncodable
  | _ => .error .keyNotStr

mutual

/-- `PyObjectToJson`. -/
def pyObjectToJson : PyObject → Except ConversionError Json
  | .none => .ok .null
  | .bool b => .ok (.bool b)
  | .int n => if IsInt64 n then .ok (.integer n) else .error .integerTooLarge
  | .float x => .ok (.float x)
  | .str (some s) => .ok (.string s)
  | .str Option.none => .error .notEncodable
  | .dict items => (membersToJson items []).map .object
  | .list xs => (itemsToJson xs).map .array
  | .tuple xs => (itemsToJson xs).map .array
  | .datetime iso => .ok (.string iso)
  | .other className => .error (.unsupportedType className)

/-- The loop over the items of a sequence. -/
def itemsToJson : List PyObject → Except ConversionError (List Json)
  | [] => .ok []
  | x :: xs => (pyObjectToJson x).bind fun v => (itemsToJson xs).map fun vs => v :: vs

/-- The loop over the items of a `dict`: `out[key] = PyObjectToJson(kv.second)`. -/
def membersToJson : List (PyObject × PyObject) → List (Bytes × Json) →
    Except ConversionError (List (Bytes × Json))
  | [], out => .ok out
  | (k, x) :: items, out => (keyText k).bind fun key => (pyObjectToJson x).bind fun v =>
      membersToJson items (Json.assign key v out)

end

/-! ### What it should be -/

mutual

/-- The JSON value of an object: the same value, but with the members of an object in the
order of their keys. -/
def Represents : PyObject → Json → Prop
  | .none, v => v = .null
  | .bool b, v => v = .bool b
  | .int n, v => v = .integer n
  | .float x, v => v = .float x
  | .str utf8, v => ∃ s, utf8 = some s ∧ v = .string s
  | .dict items, v => ∃ members kvs, v = .object kvs ∧ RepresentsMembers items members ∧
      kvs.Perm members ∧ kvs.Pairwise fun a b => compare a.1 b.1 = .lt
  | .list xs, v => ∃ vs, v = .array vs ∧ RepresentsItems xs vs
  | .tuple xs, v => ∃ vs, v = .array vs ∧ RepresentsItems xs vs
  | .datetime iso, v => v = .string iso
  | .other _, _ => False

/-- The values of the items of a sequence. -/
def RepresentsItems : List PyObject → List Json → Prop
  | [], vs => vs = []
  | x :: xs, vs => ∃ v ws, vs = v :: ws ∧ Represents x v ∧ RepresentsItems xs ws

/-- The members for the items of a `dict`, in the order of the items. -/
def RepresentsMembers : List (PyObject × PyObject) → List (Bytes × Json) → Prop
  | [], members => members = []
  | (k, x) :: items, members => ∃ key v rest, members = (key, v) :: rest ∧
      k = .str (some key) ∧ Represents x v ∧ RepresentsMembers items rest

end

mutual

/-- Everything in the object can be converted: integers fit, strings can be encoded, keys
are strings, and there is nothing of another type. -/
def Convertible : PyObject → Prop
  | .none | .bool _ | .float _ | .datetime _ => True
  | .int n => IsInt64 n
  | .str utf8 => utf8.isSome = true
  | .dict items => ConvertibleMembers items
  | .list xs => ConvertibleItems xs
  | .tuple xs => ConvertibleItems xs
  | .other _ => False

/-- Every item of a sequence can be converted. -/
def ConvertibleItems : List PyObject → Prop
  | [] => True
  | x :: xs => Convertible x ∧ ConvertibleItems xs

/-- Every key and every value of a `dict` can be converted. -/
def ConvertibleMembers : List (PyObject × PyObject) → Prop
  | [] => True
  | (k, x) :: items => (∃ key, k = .str (some key)) ∧ Convertible x ∧ ConvertibleMembers items

end

/-- The text of a key that is a string. -/
def textKey : PyObject → Option Bytes
  | .str utf8 => utf8
  | _ => Option.none

/-- The keys of a `dict` that are strings. -/
def textKeys (items : List (PyObject × PyObject)) : List Bytes :=
  items.filterMap fun item => textKey item.1

mutual

/-- A `dict` has each string once as a key, also inside of others. -/
def DistinctKeys : PyObject → Prop
  | .dict items => (textKeys items).Nodup ∧ DistinctKeysMembers items
  | .list xs => DistinctKeysItems xs
  | .tuple xs => DistinctKeysItems xs
  | _ => True

/-- The same of every item of a sequence. -/
def DistinctKeysItems : List PyObject → Prop
  | [] => True
  | x :: xs => DistinctKeys x ∧ DistinctKeysItems xs

/-- The same of every value of a `dict`. -/
def DistinctKeysMembers : List (PyObject × PyObject) → Prop
  | [] => True
  | (_, x) :: items => DistinctKeys x ∧ DistinctKeysMembers items

end

/-! ### Assignment -/

/-- The members are in the order of their keys. -/
abbrev KeySorted (kvs : List (Bytes × Json)) : Prop :=
  kvs.Pairwise fun a b => compare a.1 b.1 = .lt

/-- A new key is put in. -/
theorem perm_assign {key : Bytes} {v : Json} : ∀ {kvs : List (Bytes × Json)},
    key ∉ kvs.map Prod.fst → (Json.assign key v kvs).Perm ((key, v) :: kvs) := by
  intro kvs
  induction kvs with
  | nil => exact fun _ => .refl _
  | cons kv kvs ih =>
    obtain ⟨k, x⟩ := kv
    intro hkey
    rw [List.map_cons, List.mem_cons, not_or] at hkey
    rw [Json.assign, if_neg hkey.1]
    split
    · exact .refl _
    · exact ((ih hkey.2).cons _).trans (.swap _ _ _)

/-- It is put in its place. -/
theorem sorted_assign {key : Bytes} {v : Json} : ∀ {kvs : List (Bytes × Json)},
    key ∉ kvs.map Prod.fst → KeySorted kvs → KeySorted (Json.assign key v kvs) := by
  intro kvs
  induction kvs with
  | nil => exact fun _ _ => List.pairwise_singleton _ _
  | cons kv kvs ih =>
    obtain ⟨k, x⟩ := kv
    intro hkey hsorted
    rw [List.map_cons, List.mem_cons, not_or] at hkey
    obtain ⟨hfirst, hrest⟩ := List.pairwise_cons.mp hsorted
    rw [Json.assign, if_neg hkey.1]
    split
    · next hlt =>
      refine List.pairwise_cons.mpr ⟨fun kv hkv => ?_, hsorted⟩
      rcases List.mem_cons.mp hkv with rfl | hkv
      · exact hlt
      · exact Std.TransCmp.lt_trans hlt (hfirst kv hkv)
    · next hlt =>
      refine List.pairwise_cons.mpr ⟨fun kv hkv => ?_, ih hkey.2 hrest⟩
      rcases List.mem_cons.mp ((perm_assign hkey.2).mem_iff.mp hkv) with rfl | hkv
      · have hne : compare key k ≠ .eq := fun heq => hkey.1 (Std.LawfulEqCmp.eq_of_compare heq)
        refine Std.OrientedCmp.lt_of_gt ?_
        cases hcmp : compare key k with
        | lt => exact absurd hcmp hlt
        | eq => exact absurd hcmp hne
        | gt => rfl
      · exact hfirst kv hkv

/-- **There is one order of the members.** -/
theorem KeySorted.eq_of_perm {kvs kvs' : List (Bytes × Json)} (h : KeySorted kvs)
    (h' : KeySorted kvs') (hperm : kvs.Perm kvs') : kvs = kvs' := by
  refine List.Perm.eq_of_pairwise (fun a b _ _ hab hba => ?_) h h' hperm
  have hlt : compare a.1 a.1 = .lt := Std.TransCmp.lt_trans hab hba
  exact absurd (hlt.symm.trans Std.ReflCmp.compare_self) (by decide)

/-! ### The conversion -/

mutual

/-- What can be converted is converted. -/
theorem Convertible.converts : ∀ {o : PyObject}, Convertible o → DistinctKeys o →
    ∃ v, pyObjectToJson o = .ok v ∧ Represents o v
  | .none, _, _ => ⟨_, rfl, rfl⟩
  | .bool _, _, _ => ⟨_, rfl, rfl⟩
  | .float _, _, _ => ⟨_, rfl, rfl⟩
  | .datetime _, _, _ => ⟨_, rfl, rfl⟩
  | .int _, h, _ => ⟨_, if_pos h, rfl⟩
  | .str (some s), _, _ => ⟨_, rfl, s, rfl, rfl⟩
  | .dict items, h, hkeys => by
    obtain ⟨kvs, members, hkvs, hmembers, hperm, hsorted⟩ :=
      ConvertibleMembers.converts (show ConvertibleMembers items from h) hkeys.1 hkeys.2
        (show KeySorted [] from .nil) fun _ _ => List.not_mem_nil
    rw [List.append_nil] at hperm
    refine ⟨.object kvs, ?_, members, kvs, rfl, hmembers, hperm, hsorted⟩
    rw [pyObjectToJson, hkvs]
    rfl
  | .list xs, h, hkeys => by
    obtain ⟨vs, hvs, hitems⟩ := ConvertibleItems.converts (show ConvertibleItems xs from h) hkeys
    refine ⟨.array vs, ?_, vs, rfl, hitems⟩
    rw [pyObjectToJson, hvs]
    rfl
  | .tuple xs, h, hkeys => by
    obtain ⟨vs, hvs, hitems⟩ := ConvertibleItems.converts (show ConvertibleItems xs from h) hkeys
    refine ⟨.array vs, ?_, vs, rfl, hitems⟩
    rw [pyObjectToJson, hvs]
    rfl

theorem ConvertibleItems.converts : ∀ {xs : List PyObject}, ConvertibleItems xs →
    DistinctKeysItems xs → ∃ vs, itemsToJson xs = .ok vs ∧ RepresentsItems xs vs
  | [], _, _ => ⟨[], rfl, rfl⟩
  | x :: xs, h, hkeys => by
    obtain ⟨v, hv, hx⟩ := Convertible.converts h.1 hkeys.1
    obtain ⟨vs, hvs, hxs⟩ := ConvertibleItems.converts h.2 hkeys.2
    refine ⟨v :: vs, ?_, v, vs, rfl, hx, hxs⟩
    rw [itemsToJson, hv, hvs]
    rfl

/-- The members so far are in order, and none of them has a key of the items that are
left. -/
theorem ConvertibleMembers.converts : ∀ {items : List (PyObject × PyObject)},
    ConvertibleMembers items → (textKeys items).Nodup → DistinctKeysMembers items →
    ∀ {out : List (Bytes × Json)}, KeySorted out →
      (∀ key ∈ textKeys items, key ∉ out.map Prod.fst) →
      ∃ kvs members, membersToJson items out = .ok kvs ∧ RepresentsMembers items members ∧
        kvs.Perm (members ++ out) ∧ KeySorted kvs
  | [], _, _, _, out, hout, _ => ⟨out, [], rfl, rfl, .refl _, hout⟩
  | (k, x) :: items, h, hnodup, hkeys, out, hout, hfresh => by
    obtain ⟨⟨key, rfl⟩, hx, hitems⟩ := h
    obtain ⟨v, hv, hrep⟩ := Convertible.converts hx hkeys.1
    obtain ⟨hkey, hrest⟩ := List.nodup_cons.mp hnodup
    have hnew : key ∉ out.map Prod.fst := hfresh key List.mem_cons_self
    have hperm := perm_assign (v := v) hnew
    obtain ⟨kvs, members, hkvs, hmembers, hperm', hsorted⟩ :=
      ConvertibleMembers.converts hitems hrest hkeys.2 (sorted_assign (v := v) hnew hout)
        fun key' hkey' hmem => by
          rcases List.mem_cons.mp ((hperm.map Prod.fst).mem_iff.mp hmem) with rfl | hmem
          · exact hkey hkey'
          · exact hfresh key' (List.mem_cons_of_mem _ hkey') hmem
    refine ⟨kvs, (key, v) :: members, ?_, ⟨key, v, members, rfl, rfl, hrep, hmembers⟩,
      (hperm'.trans (hperm.append_left _)).trans List.perm_middle, hsorted⟩
    rw [membersToJson, hv]
    exact hkvs

end

mutual

/-- What is converted can be. -/
theorem convertible_of_ok : ∀ {o : PyObject} {v : Json}, pyObjectToJson o = .ok v → Convertible o
  | .none, _, _ => trivial
  | .bool _, _, _ => trivial
  | .float _, _, _ => trivial
  | .datetime _, _, _ => trivial
  | .int n, _, h => by
    rw [pyObjectToJson] at h
    split at h
    · assumption
    · cases h
  | .str (some _), _, _ => rfl
  | .dict items, _, h => by
    rw [pyObjectToJson] at h
    cases hitems : membersToJson items [] with
    | ok kvs => exact convertibleMembers_of_ok hitems
    | error e => rw [hitems] at h; cases h
  | .list xs, _, h => by
    rw [pyObjectToJson] at h
    cases hitems : itemsToJson xs with
    | ok vs => exact convertibleItems_of_ok hitems
    | error e => rw [hitems] at h; cases h
  | .tuple xs, _, h => by
    rw [pyObjectToJson] at h
    cases hitems : itemsToJson xs with
    | ok vs => exact convertibleItems_of_ok hitems
    | error e => rw [hitems] at h; cases h

theorem convertibleItems_of_ok : ∀ {xs : List PyObject} {vs : List Json},
    itemsToJson xs = .ok vs → ConvertibleItems xs
  | [], _, _ => trivial
  | x :: xs, _, h => by
    rw [itemsToJson] at h
    cases hx : pyObjectToJson x with
    | error e => rw [hx] at h; cases h
    | ok v =>
      cases hxs : itemsToJson xs with
      | error e => rw [hx, hxs] at h; cases h
      | ok vs => exact ⟨convertible_of_ok hx, convertibleItems_of_ok hxs⟩

theorem convertibleMembers_of_ok : ∀ {items : List (PyObject × PyObject)}
    {out kvs : List (Bytes × Json)}, membersToJson items out = .ok kvs → ConvertibleMembers items
  | [], _, _, _ => trivial
  | (k, x) :: items, out, _, h => by
    rw [membersToJson] at h
    cases hk : keyText k with
    | error e => rw [hk] at h; cases h
    | ok key =>
      cases hx : pyObjectToJson x with
      | error e => rw [hk, hx] at h; cases h
      | ok v =>
        rw [hk, hx] at h
        refine ⟨⟨key, ?_⟩, convertible_of_ok hx, convertibleMembers_of_ok h⟩
        unfold keyText at hk
        split at hk <;> cases hk
        rfl

end

mutual

/-- **An object has one JSON value.** -/
theorem Represents.unique : ∀ {o : PyObject} {v w : Json}, Represents o v → Represents o w → v = w
  | .none, _, _, hv, hw => hv.trans hw.symm
  | .bool _, _, _, hv, hw => hv.trans hw.symm
  | .int _, _, _, hv, hw => hv.trans hw.symm
  | .float _, _, _, hv, hw => hv.trans hw.symm
  | .datetime _, _, _, hv, hw => hv.trans hw.symm
  | .str utf8, _, _, ⟨s, hs, hv⟩, ⟨t, ht, hw⟩ => by
    obtain rfl : s = t := Option.some.inj (hs.symm.trans ht)
    exact hv.trans hw.symm
  | .dict items, _, _, ⟨ms, kvs, hv, hms, hperm, hsorted⟩,
      ⟨ms', kvs', hw, hms', hperm', hsorted'⟩ => by
    obtain rfl := RepresentsMembers.unique hms hms'
    obtain rfl := KeySorted.eq_of_perm hsorted hsorted' (hperm.trans hperm'.symm)
    exact hv.trans hw.symm
  | .list xs, _, _, ⟨vs, hv, hvs⟩, ⟨ws, hw, hws⟩ => by
    obtain rfl := RepresentsItems.unique hvs hws
    exact hv.trans hw.symm
  | .tuple xs, _, _, ⟨vs, hv, hvs⟩, ⟨ws, hw, hws⟩ => by
    obtain rfl := RepresentsItems.unique hvs hws
    exact hv.trans hw.symm

theorem RepresentsItems.unique : ∀ {xs : List PyObject} {vs ws : List Json},
    RepresentsItems xs vs → RepresentsItems xs ws → vs = ws
  | [], _, _, hv, hw => hv.trans hw.symm
  | x :: xs, _, _, ⟨v, vs, hv, hx, hxs⟩, ⟨w, ws, hw, hx', hxs'⟩ => by
    obtain rfl := Represents.unique hx hx'
    obtain rfl := RepresentsItems.unique hxs hxs'
    exact hv.trans hw.symm

theorem RepresentsMembers.unique : ∀ {items : List (PyObject × PyObject)}
    {ms ms' : List (Bytes × Json)}, RepresentsMembers items ms → RepresentsMembers items ms' →
      ms = ms'
  | [], _, _, hv, hw => hv.trans hw.symm
  | (k, x) :: items, _, _, ⟨key, v, ms, hv, hk, hx, hms⟩, ⟨key', w, ms', hw, hk', hx', hms'⟩ => by
    obtain rfl : key = key' := by simpa using hk.symm.trans hk'
    obtain rfl := Represents.unique hx hx'
    obtain rfl := RepresentsMembers.unique hms hms'
    exact hv.trans hw.symm

end

/-- **An object is converted if and only if all of it can be, and to the value that
represents it.** -/
theorem pyObjectToJson_eq_ok_iff {o : PyObject} {v : Json} (hkeys : DistinctKeys o) :
    pyObjectToJson o = .ok v ↔ Convertible o ∧ Represents o v := by
  constructor
  · intro h
    have hconv := convertible_of_ok h
    obtain ⟨w, hw, hrep⟩ := hconv.converts hkeys
    obtain rfl : w = v := Except.ok.inj (hw.symm.trans h)
    exact ⟨hconv, hrep⟩
  · rintro ⟨hconv, hrep⟩
    obtain ⟨w, hw, hrep'⟩ := hconv.converts hkeys
    rw [hw, hrep'.unique hrep]

/-! ### The binding -/

/-- `push_to_backlog`: the entry that is added to the backlog of the running server. -/
def pushToBacklog : PyObject → Except ConversionError Json
  | .dict items => pyObjectToJson (.dict items)
  | _ => .error .notDict

/-- **What `push_to_backlog` does with any object**: an entry is added if and only if it is a
`dict` and all of it can be converted, and the entry represents it. -/
theorem pushToBacklog_exact {o : PyObject} {v : Json} (hkeys : DistinctKeys o) :
    pushToBacklog o = .ok v ↔
      (∃ items, o = .dict items) ∧ Convertible o ∧ Represents o v := by
  cases o with
  | dict items =>
    rw [pushToBacklog, pyObjectToJson_eq_ok_iff hkeys]
    exact (and_iff_right ⟨items, rfl⟩).symm
  | _ => exact iff_of_false (fun h => by cases h) (by rintro ⟨⟨items, h⟩, -⟩; cases h)

/-- `{"b": (None,), "a": 1}`. -/
def twoItems : PyObject :=
  .dict [(.str (some (lit "b")), .tuple [.none]), (.str (some (lit "a")), .int 1)]

/-- The members of the two items change places. -/
theorem pushToBacklog_two :
    pushToBacklog twoItems = .ok (.object [(lit "a", .integer 1), (lit "b", .array [.null])]) := by
  have hkeys : DistinctKeys twoItems :=
    ⟨by decide, ⟨trivial, trivial⟩, trivial, trivial⟩
  have hint : Convertible (.int 1) := show IsInt64 1 by decide
  refine (pushToBacklog_exact hkeys).mpr ⟨⟨_, rfl⟩,
    ⟨⟨_, rfl⟩, ⟨trivial, trivial⟩, ⟨_, rfl⟩, hint, trivial⟩, ?_⟩
  exact ⟨_, _, rfl, ⟨_, _, _, rfl, rfl, ⟨_, rfl, _, _, rfl, rfl, rfl⟩, _, _, _, rfl, rfl, rfl, rfl⟩,
    .swap _ _ _, by decide⟩

/-! ### Connections -/

section
variable (real : Bytes → Real64)

/-- The UTF-8 of a string, if it has no lone surrogate. -/
def encoded (s : Bytes) : Option Bytes := if Utf8.wellFormed s then some s else none

mutual

/-- A decoded value as an object; `real` reads a float. -/
def PyValue.object : PyValue → PyObject
  | .none => .none
  | .bool b => .bool b
  | .int n => .int n
  | .float repr => .float (real repr)
  | .str s => .str (encoded s)
  | .list xs => .list (objects xs)
  | .dict items => .dict (itemObjects items)

/-- The items of a list. -/
def objects : List PyValue → List PyObject
  | [] => []
  | x :: xs => x.object :: objects xs

/-- The items of a `dict`. -/
def itemObjects : List (Bytes × PyValue) → List (PyObject × PyObject)
  | [] => []
  | (k, x) :: items => (.str (encoded k), x.object) :: itemObjects items

end

/-- The value is a `dict` that can be converted. -/
def Loggable : PyValue → Prop
  | .dict items => Convertible ((PyValue.dict items).object real)
  | _ => False

/-- The lines that are not empty, with their places. -/
def nonEmptyLines (lines : List Bytes) : List (Bytes × ℕ) :=
  lines.zipIdx.filter fun line => !line.1.isEmpty

section
variable (decode : Bytes → Except PyException PyValue) (clock : ℕ → Bytes) (running : ℕ → Bool)

open Classical in
/-- The value of which a log entry should be made, if there is one: the line is handled at
the time `now`, and `backlog` says whether the server has a backlog then. -/
noncomputable def loggableValue (now : Bytes) (backlog : Bool) (line : Bytes) : Option PyValue :=
  match decode line with
  | .ok entry =>
    if backlog = true ∧ Loggable real (stamped now entry) then some (stamped now entry) else none
  | .error _ => none

/-- The values of which log entries should be made: `running j` says whether the server has
a backlog when line `j` of the lines that are not empty is handled. -/
noncomputable def loggable (lines : List Bytes) : List PyValue :=
  (nonEmptyLines lines).zipIdx.filterMap fun (line, j) =>
    loggableValue real decode (clock line.2) (running j) line.1

/-- `PushToBacklog`, for the entry that was made: what is added to the backlog. -/
def addIfRunning (backlog : Bool) (entry : Except ConversionError Json) : Option Json :=
  match entry with
  | .ok entry => if backlog then some entry else none
  | .error _ => none

/-- The entries that a connection has added to the backlog. -/
def addedLogs (s : ConnectionState) : List Json :=
  s.outcomes.zipIdx.filterMap fun (outcome, j) =>
    outcome.call.bind fun value => addIfRunning (running j) (pushToBacklog (value.object real))

end

variable {real}

theorem itemObjects_append (items items' : List (Bytes × PyValue)) :
    itemObjects real (items ++ items') = itemObjects real items ++ itemObjects real items' := by
  induction items with
  | nil => rfl
  | cons item items ih =>
    rw [List.cons_append, itemObjects, itemObjects, ih]
    rfl

theorem textKeys_itemObjects (items : List (Bytes × PyValue)) :
    textKeys (itemObjects real items) = items.filterMap fun item => encoded item.1 := by
  induction items with
  | nil => rfl
  | cons item items ih =>
    obtain ⟨k, x⟩ := item
    rw [itemObjects, textKeys, List.filterMap_cons, List.filterMap_cons, ← ih]
    rfl

theorem distinctKeysMembers_append {items items' : List (PyObject × PyObject)}
    (h : DistinctKeysMembers items) (h' : DistinctKeysMembers items') :
    DistinctKeysMembers (items ++ items') := by
  induction items with
  | nil => exact h'
  | cons item items ih => exact ⟨h.1, ih h.2⟩

theorem encoded_eq_some {s t : Bytes} (h : encoded s = some t) : s = t := by
  unfold encoded at h
  split at h
  · exact Option.some.inj h
  · cases h

/-- The timestamp is a new key. -/
theorem DistinctKeys.stamped {value : PyValue} {now : Bytes}
    (h : DistinctKeys (value.object real)) : DistinctKeys ((stamped now value).object real) := by
  cases value with
  | dict items =>
    rw [LogLite.stamped]
    split
    · exact h
    · next hhas =>
      rw [PyValue.object] at h ⊢
      rw [itemObjects_append]
      refine ⟨?_, distinctKeysMembers_append h.2 ⟨trivial, trivial⟩⟩
      have hlast : textKeys (itemObjects real [(lit "timestamp", .str now)]) =
          [lit "timestamp"] := by
        rw [textKeys_itemObjects]
        rfl
      have happend : textKeys (itemObjects real items ++
          itemObjects real [(lit "timestamp", .str now)]) =
            textKeys (itemObjects real items) ++ [lit "timestamp"] := by
        rw [← hlast]
        exact List.filterMap_append
      rw [happend, List.nodup_append]
      refine ⟨h.1, List.nodup_singleton _, fun k hk k' hk' heq => hhas ?_⟩
      obtain rfl : k' = lit "timestamp" := List.mem_singleton.mp hk'
      rw [textKeys_itemObjects] at hk
      obtain ⟨item, hitem, hname⟩ := List.mem_filterMap.mp hk
      have hkey : item.1 = lit "timestamp" := (encoded_eq_some hname).trans heq
      exact List.any_eq_true.mpr ⟨item, hitem, by simpa using hkey⟩
  | _ => exact h

/-- **A value is added to the backlog if and only if it is loggable.** -/
theorem pushToBacklog_eq_ok_iff {value : PyValue} {v : Json}
    (hkeys : DistinctKeys (value.object real)) :
    pushToBacklog (value.object real) = .ok v ↔
      Loggable real value ∧ Represents (value.object real) v := by
  cases value with
  | dict items => exact pyObjectToJson_eq_ok_iff hkeys
  | _ => exact iff_of_false (fun h => by cases h) (fun h => h.1)

/-- What is no `dict` and has a timestamp is refused. -/
theorem pushToBacklog_of_not_acceptable {value : PyValue} (h : Acceptable value = false) :
    pushToBacklog (value.object real) = .error .notDict := by
  cases value with
  | dict => cases h
  | _ => rfl

/-- A loggable value has its entry. -/
theorem Loggable.pushes {value : PyValue} (h : Loggable real value)
    (hkeys : DistinctKeys (value.object real)) :
    ∃ v, pushToBacklog (value.object real) = .ok v ∧ Represents (value.object real) v := by
  cases value with
  | dict items => exact Convertible.converts h hkeys
  | _ => exact h.elim

theorem Loggable.acceptable {value : PyValue} (h : Loggable real value) :
    Acceptable value = true := by
  cases value with
  | dict => rfl
  | _ => exact h.elim

/-- Two ways to make at most one value of each item, of which those that are made belong
together. -/
theorem forall₂_filterMap {α β γ : Type} {R : β → γ → Prop} {f : α → Option β}
    {g : α → Option γ} : ∀ {l : List α}, (∀ a ∈ l, (f a = none ∧ g a = none) ∨
      ∃ b c, f a = some b ∧ g a = some c ∧ R b c) →
    List.Forall₂ R (l.filterMap f) (l.filterMap g) := by
  intro l
  induction l with
  | nil => exact fun _ => .nil
  | cons a l ih =>
    intro h
    obtain ⟨ha, hl⟩ := List.forall_mem_cons.mp h
    rcases ha with ⟨hf, hg⟩ | ⟨b, c, hf, hg, hbc⟩
    · rw [List.filterMap_cons_none hf, List.filterMap_cons_none hg]
      exact ih hl
    · rw [List.filterMap_cons_some hf, List.filterMap_cons_some hg]
      exact .cons hbc (ih hl)

/-- What becomes of the lines, one outcome for each line that is not empty. -/
theorem lineOutcomes_eq_map (decode : Bytes → Except PyException PyValue) (clock : ℕ → Bytes)
    (lines : List Bytes) : lineOutcomes decode clock 0 lines =
      (nonEmptyLines lines).map fun line => handleLine decode (clock line.2) line.1 := by
  unfold lineOutcomes nonEmptyLines
  rw [← List.filterMap_eq_map, List.filterMap_filter]
  refine List.filterMap_congr fun line _ => ?_
  cases line.1.isEmpty <;> rfl

/-- A value that is handed over is added to the backlog if and only if it should be. -/
theorem addIfRunning_iff {value : PyValue} {backlog : Bool} {v : Json}
    (hkeys : DistinctKeys (value.object real)) :
    addIfRunning backlog (pushToBacklog (value.object real)) = some v ↔
      (backlog = true ∧ Loggable real value) ∧ Represents (value.object real) v := by
  rw [and_assoc, ← pushToBacklog_eq_ok_iff hkeys]
  unfold addIfRunning
  cases pushToBacklog (value.object real) with
  | ok w => cases backlog <;> simp
  | error e => simp

/-- One line: an entry is added if and only if its value should be logged. -/
theorem handleLine_added {decode : Bytes → Except PyException PyValue} {now line : Bytes}
    {backlog : Bool}
    (hdecode : ∀ value, decode line = .ok value → DistinctKeys (value.object real)) :
    (loggableValue real decode now backlog line = none ∧
        ((handleLine decode now line).call.bind fun value =>
          addIfRunning backlog (pushToBacklog (value.object real))) = none) ∨
      ∃ value v, loggableValue real decode now backlog line = some value ∧
        ((handleLine decode now line).call.bind fun value =>
          addIfRunning backlog (pushToBacklog (value.object real))) = some v ∧
        Represents (value.object real) v := by
  unfold handleLine loggableValue
  cases hline : decode line with
  | error e => cases e <;> exact .inl ⟨rfl, rfl⟩
  | ok entry =>
    dsimp only
    cases hacceptable : Acceptable entry with
    | true =>
      have hkeys := @DistinctKeys.stamped _ entry now (hdecode entry hline)
      rw [withTimestamp_of_acceptable hacceptable]
      by_cases hlog : backlog = true ∧ Loggable real (stamped now entry)
      · obtain ⟨v, -, hrep⟩ := hlog.2.pushes hkeys
        exact .inr ⟨_, v, if_pos hlog, (addIfRunning_iff hkeys).mpr ⟨hlog, hrep⟩, hrep⟩
      · refine .inl ⟨if_neg hlog, Option.eq_none_iff_forall_not_mem.mpr fun v hv => ?_⟩
        exact hlog ((addIfRunning_iff hkeys).mp hv).1
    | false =>
      have hlog : ¬ (backlog = true ∧ Loggable real (stamped now entry)) := by
        rintro ⟨-, hlog⟩
        have hok := hlog.acceptable
        rw [acceptable_stamped, hacceptable] at hok
        cases hok
      refine .inl ⟨if_neg hlog, ?_⟩
      -- it may be handed over nonetheless, but the binding takes a `dict`
      by_cases hhas : entry.hasTimestamp = some true
      · rw [withTimestamp_of_hasTimestamp hhas]
        show addIfRunning backlog (pushToBacklog (entry.object real)) = none
        rw [pushToBacklog_of_not_acceptable hacceptable]
        rfl
      · obtain ⟨what, hwhat⟩ : ∃ what, withTimestamp now entry = .error (.other what) :=
          withTimestamp_of_not_acceptable hacceptable hhas
        rw [hwhat]
        rfl

/-- **What is logged of a connection**: whatever arrives, and however it is cut, the entries
added to the backlog represent, in order and each once, the loggable values of the lines. -/
theorem socket_logs_exact {decode : Bytes → Except PyException PyValue}
    (hdecode : ∀ line value, decode line = .ok value → DistinctKeys (value.object real))
    (clock : ℕ → Bytes) (running : ℕ → Bool) {chunks : List Bytes}
    (hne : ∀ data ∈ chunks, data ≠ []) :
    ∃ segs rest, Lines chunks.flatten segs rest ∧
      List.Forall₂ (fun value v => Represents (value.object real) v)
        (loggable real decode clock running segs)
        (addedLogs real running (handleClient decode clock .start (chunks.map readTurn)).1) := by
  refine ⟨_, _, lines_segments _, ?_⟩
  rw [handleClient_read hne]
  unfold addedLogs loggable
  dsimp only
  rw [lineOutcomes_eq_map, List.zipIdx_map, List.filterMap_map]
  refine forall₂_filterMap fun item _ => ?_
  obtain ⟨line, j⟩ := item
  exact handleLine_added fun value => hdecode line.1 value

end

/-- A decoder that knows two lines: an object, and one with a lone surrogate. -/
def decodeSurrogate (line : Bytes) : Except PyException PyValue :=
  if line = lit "\x7b\"a\":1\x7d" then .ok (.dict [(lit "a", .int 1)])
  else if line = lit "\x7b\"a\":\"\\ud800\"\x7d" then
    .ok (.dict [(lit "a", .str [0xED, 0xA0, 0x80])])
  else .error .jsonDecodeError

/-- Three lines in two chunks.  The server stops before the last of them. -/
theorem socket_logs_exact_three : ∃ segs rest,
    Lines [lit "\x7b\"a\"", lit ":1\x7d\n\x7b\"a\":\"\\ud800\"\x7d\n\x7b\"a\":1\x7d\n"].flatten
      segs rest ∧
    List.Forall₂ (fun value v => Represents (value.object fun _ => .finite 0) v)
      (loggable (fun _ => .finite 0) decodeSurrogate (fun _ => lit "2025-01-01T00:00:00")
        (fun j => j < 2) segs)
      (addedLogs (fun _ => .finite 0) (fun j => j < 2)
        (handleClient decodeSurrogate (fun _ => lit "2025-01-01T00:00:00") .start
          ([lit "\x7b\"a\"",
            lit ":1\x7d\n\x7b\"a\":\"\\ud800\"\x7d\n\x7b\"a\":1\x7d\n"].map readTurn)).1) := by
  refine socket_logs_exact (fun line value h => ?_) _ _ (by simp [lit])
  unfold decodeSurrogate at h
  split at h
  · cases h
    exact ⟨by decide, trivial, trivial⟩
  · split at h
    · cases h
      exact ⟨by decide, trivial, trivial⟩
    · cases h

end LogLite
