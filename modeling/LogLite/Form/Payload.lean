import LogLite.Form.Agree
import LogLite.Http.Filters

/-!
# The form for a log entry

The dashboard builds a form from the schema of the log table and posts what was entered.
It does not let required fields be empty, and leaves empty ones out.  The server skips an
entry that lacks a value for a `NOT NULL` column.

An entered `null` is JSON, so the form takes it for a value, and then leaves it out.  Nor
does an object of JavaScript get a member by an assignment to `__proto__`.

## Main definitions

* `LogSchemaColumn`, `buildSchemaPayload` — the schema, as the server describes it.
* `fieldText`, `buildLogPayload`, `canSubmitLog` — the form.
* `entered` — the value entered for a column.
* `LeftOut` — a value was entered and is left out.

## Main results

* `buildLogPayload_find` — **the payload has what was entered.**
* `hasRequired_payload_iff` — when it has all required values.
* `form_payload_inserted` — **the server takes what the form has accepted, unless a required
  value is left out.**
-/

namespace LogLite

/-! ### The schema -/

/-- A column, as the server describes it. -/
structure LogSchemaColumn where
  name : ColumnName
  kind : LogColumnKind
  sqliteType : Bytes
  compressed : Bool
  notNull : Bool
  primaryKey : Bool

/-- The description of a column.  Without compression no column is compressed. -/
def schemaColumn (cat : DatabaseCatalog) (ci : ColumnInfo) : LogSchemaColumn where
  name := ci.name
  kind := normalizeColumnKind ci.type (cat.compressedColumns.contains ci.name)
  sqliteType := ci.type
  compressed := cat.compressedColumns.contains ci.name
  notNull := ci.notNull
  primaryKey := ci.isPk

/-- `BuildSchemaPayload`: the columns. -/
def buildSchemaPayload (cat : DatabaseCatalog) : List LogSchemaColumn :=
  cat.logColumnInfo.map (schemaColumn cat)

/-- `editableSchemaColumns`. -/
def editableSchemaColumns (columns : List LogSchemaColumn) : List LogSchemaColumn :=
  columns.filter fun c => !c.primaryKey

/-! ### The form -/

/-- What is thrown when a field is no string. -/
def trimIsNotAFunction : Bytes := lit "raw.trim is not a function"

/-- `values[name] ?? ''`, where an inherited property is no string. -/
def fieldText (values : List (Bytes × Bytes)) (name : ColumnName) : Except Bytes Bytes :=
  match values.lookup name with
  | some raw => .ok raw
  | none => if inheritedNames.contains name then .error trimIsNotAFunction else .ok []

/-- `payload[name] = value`, of which `JSON.stringify` writes the members. -/
def setMember (name : ColumnName) (v : Json) (payload : List (Bytes × Json)) :
    List (Bytes × Json) :=
  if name = lit "__proto__" then payload else Json.assign name v payload

section
variable (js : JsRuntime) (strtod : Bytes → Real64) (values : List (Bytes × Bytes))

/-- The loop of `buildLogPayload`: it throws, or there is an invalid field, or a payload. -/
def payloadMembers : List LogSchemaColumn → List (Bytes × Json) →
    Except Bytes (Except ColumnName (List (Bytes × Json)))
  | [], payload => .ok (.ok payload)
  | col :: cols, payload =>
    match fieldText values col.name with
    | .error what => .error what
    | .ok raw =>
      match coerceFieldToJsonValue js strtod col.kind raw (!col.notNull) with
      | none => .ok (.error col.name)
      | some v => payloadMembers cols (if v.isNull then payload else setMember col.name v payload)

/-- `buildLogPayload`, as the server gets the payload. -/
def buildLogPayload (columns : List LogSchemaColumn) : Except Bytes (Except ColumnName Json) :=
  (payloadMembers js strtod values (editableSchemaColumns columns) []).map fun result =>
    result.map Json.object

/-- `isRequiredFieldValid`. -/
def isRequiredFieldValid (kind : LogColumnKind) (raw : Bytes) : Bool :=
  (coerceFieldToJsonValue js strtod kind raw false).isSome

/-- The loop of `canSubmitLog`. -/
def requiredFieldsValid : List LogSchemaColumn → Except Bytes Bool
  | [] => .ok true
  | col :: cols =>
    if col.notNull then
      match fieldText values col.name with
      | .error what => .error what
      | .ok raw =>
        if isRequiredFieldValid js strtod col.kind raw then requiredFieldsValid cols
        else .ok false
    else requiredFieldsValid cols

/-- `canSubmitLog`. -/
def canSubmitLog (columns : List LogSchemaColumn) : Except Bytes Bool :=
  (requiredFieldsValid js strtod values (editableSchemaColumns columns)).map fun valid =>
    valid && !(editableSchemaColumns columns).isEmpty

/-! ### What is entered -/

/-- The value entered for a column, if it is valid. -/
def entered (col : LogSchemaColumn) : Option Json :=
  match fieldText values col.name with
  | .ok raw => coerceFieldToJsonValue js strtod col.kind raw (!col.notNull)
  | .error _ => none

/-- A value was entered for a column, and is left out of the payload: an assignment to
`__proto__` makes no member, and `null` is taken for an empty field. -/
def LeftOut (col : LogSchemaColumn) : Prop :=
  col.name = lit "__proto__" ∨
    col.kind = .json ∧ ∃ raw, fieldText values col.name = .ok raw ∧
      js.jsonParse (jsTrim raw) = some .null

variable {js strtod values}

theorem jsonNumber_ne_null (s : Bytes) : jsonNumber strtod s ≠ .null := by
  unfold jsonNumber
  split
  · split
    · nofun
    · nofun
  · nofun

/-- The value of a required field is `null` if the field is JSON and that was entered. -/
theorem coerce_required_eq_null_iff {kind : LogColumnKind} {raw : Bytes} {v : Json}
    (h : coerceFieldToJsonValue js strtod kind raw false = some v) :
    v = .null ↔ kind = .json ∧ js.jsonParse (jsTrim raw) = some .null := by
  unfold coerceFieldToJsonValue at h
  dsimp only at h
  split at h
  · cases h
  · next hfilled =>
    cases kind with
    | json =>
      have hparse : js.jsonParse (jsTrim raw) = some v := by
        rw [← h]
        simp only [parseJsonField, jsTrim_jsTrim, if_neg hfilled]
      rw [hparse, Option.some.injEq]
      exact (and_iff_right rfl).symm
    | boolean =>
      obtain ⟨b, -, rfl⟩ := Option.map_eq_some_iff.mp h
      exact iff_of_false nofun nofun
    | integer =>
      obtain ⟨x, -, rfl⟩ := Option.map_eq_some_iff.mp h
      exact iff_of_false (jsonNumber_ne_null _) nofun
    | number =>
      obtain ⟨x, -, rfl⟩ := Option.map_eq_some_iff.mp h
      exact iff_of_false (jsonNumber_ne_null _) nofun
    | datetime =>
      refine iff_of_false ?_ nofun
      rintro rfl
      dsimp only at h
      split at h
      · cases h
      · obtain ⟨x, -, hx⟩ := Option.map_eq_some_iff.mp h
        cases hx
    | text | blob =>
      cases h
      exact iff_of_false nofun nofun

/-! ### The payload -/

theorem find_nil (name : ColumnName) : Json.find name (.object []) = .null := rfl

/-- An assignment to another name. -/
theorem find_setMember_of_ne {name name' : ColumnName} (h : name ≠ name') (v : Json)
    (payload : List (Bytes × Json)) :
    Json.find name' (.object (setMember name v payload)) = Json.find name' (.object payload) := by
  unfold setMember
  split
  · rfl
  · rw [Json.find_assign, if_neg h]

/-- One step of the loop. -/
theorem payloadMembers_cons_ok {col : LogSchemaColumn} {cols : List LogSchemaColumn}
    {payload out : List (Bytes × Json)}
    (h : payloadMembers js strtod values (col :: cols) payload = .ok (.ok out)) :
    ∃ v, entered js strtod values col = some v ∧
      payloadMembers js strtod values cols
        (if v.isNull then payload else setMember col.name v payload) = .ok (.ok out) := by
  unfold payloadMembers at h
  unfold entered
  cases htext : fieldText values col.name with
  | error what => rw [htext] at h; cases h
  | ok raw =>
    rw [htext] at h
    dsimp only at h ⊢
    split at h
    · cases h
    · next v hv => exact ⟨v, hv, h⟩

/-- Columns of other names, and `__proto__`, get no value. -/
theorem payloadMembers_find_of_notMem {name : ColumnName} : ∀ {cols : List LogSchemaColumn}
    {payload out : List (Bytes × Json)},
    payloadMembers js strtod values cols payload = .ok (.ok out) →
      (∀ col ∈ cols, col.name ≠ name) ∨ name = lit "__proto__" →
      Json.find name (.object out) = Json.find name (.object payload)
  | [], _, _, h, _ => by cases h; rfl
  | col :: cols, payload, out, h, hname => by
    obtain ⟨v, -, hrest⟩ := payloadMembers_cons_ok h
    rw [payloadMembers_find_of_notMem hrest
      (hname.imp_left fun hne col' hcol' => hne col' (List.mem_cons_of_mem _ hcol'))]
    split
    · rfl
    · by_cases hcol : col.name = name
      · have hproto : name = lit "__proto__" :=
          hname.resolve_left fun hne => hne col List.mem_cons_self hcol
        rw [setMember, if_pos (hcol.trans hproto)]
      · exact find_setMember_of_ne hcol v payload

/-- The loop sets the members of all columns that had none. -/
theorem payloadMembers_find : ∀ {cols : List LogSchemaColumn} {payload out : List (Bytes × Json)},
    payloadMembers js strtod values cols payload = .ok (.ok out) → (cols.map (·.name)).Nodup →
      (∀ col ∈ cols, Json.find col.name (.object payload) = .null) →
      ∀ col ∈ cols, ∃ v, entered js strtod values col = some v ∧
        (col.name ≠ lit "__proto__" → Json.find col.name (.object out) = v)
  | [], _, _, _, _, _ => fun _ hcol => absurd hcol List.not_mem_nil
  | col :: cols, payload, out, h, hnodup, hnull => by
    obtain ⟨v, hv, hrest⟩ := payloadMembers_cons_ok h
    obtain ⟨hfresh, hnodup⟩ := List.nodup_cons.mp hnodup
    have hother : ∀ col' ∈ cols, col'.name ≠ col.name := fun col' hcol' heq =>
      hfresh (List.mem_map.mpr ⟨col', hcol', heq⟩)
    intro col' hcol'
    rcases List.mem_cons.mp hcol' with rfl | hcol'
    · refine ⟨v, hv, fun hproto => ?_⟩
      rw [payloadMembers_find_of_notMem hrest (.inl hother)]
      split
      · next hisNull =>
        rw [hnull col' List.mem_cons_self, Json.isNull_iff.mp hisNull]
      · rw [setMember, if_neg hproto, Json.find_assign, if_pos rfl]
    · refine payloadMembers_find hrest hnodup (fun col'' hcol'' => ?_) col' hcol'
      have hbefore := hnull col'' (List.mem_cons_of_mem _ hcol'')
      split
      · exact hbefore
      · rw [find_setMember_of_ne (hother col'' hcol'').symm, hbefore]

/-- The form can be submitted if there is a payload. -/
theorem requiredFieldsValid_of_payload : ∀ {cols : List LogSchemaColumn}
    {payload out : List (Bytes × Json)},
    payloadMembers js strtod values cols payload = .ok (.ok out) →
      requiredFieldsValid js strtod values cols = .ok true
  | [], _, _, _ => rfl
  | col :: cols, payload, out, h => by
    obtain ⟨v, hv, hrest⟩ := payloadMembers_cons_ok h
    have ih := requiredFieldsValid_of_payload hrest
    unfold requiredFieldsValid
    split
    · next hrequired =>
      unfold entered at hv
      cases htext : fieldText values col.name with
      | error what => rw [htext] at hv; cases hv
      | ok raw =>
        rw [htext, hrequired] at hv
        have hvalid : isRequiredFieldValid js strtod col.kind raw = true :=
          Option.isSome_iff_exists.mpr ⟨v, hv⟩
        dsimp only
        rw [if_pos hvalid, ih]
    · exact ih

/-! ### What is stored -/

variable {cat : DatabaseCatalog} {payload : Json}

/-- The columns of the form are those that `Insert` writes. -/
theorem editableSchemaColumns_buildSchemaPayload (cat : DatabaseCatalog) :
    editableSchemaColumns (buildSchemaPayload cat) =
      cat.insertColumns.map (schemaColumn cat) := by
  rw [editableSchemaColumns, buildSchemaPayload, DatabaseCatalog.insertColumns, List.filter_map]
  rfl

theorem payloadMembers_of_buildLogPayload
    (h : buildLogPayload js strtod values (buildSchemaPayload cat) = .ok (.ok payload)) :
    ∃ out, payload = .object out ∧
      payloadMembers js strtod values (cat.insertColumns.map (schemaColumn cat)) [] =
        .ok (.ok out) := by
  unfold buildLogPayload at h
  rw [editableSchemaColumns_buildSchemaPayload] at h
  cases hmembers : payloadMembers js strtod values (cat.insertColumns.map (schemaColumn cat)) []
  with
  | error what => rw [hmembers] at h; cases h
  | ok result =>
    rw [hmembers] at h
    cases result with
    | error name => cases h
    | ok out =>
      cases h
      exact ⟨out, rfl, rfl⟩

/-- **The payload has what was entered**, for every column that `Insert` writes, but for
`__proto__`. -/
theorem buildLogPayload_find
    (h : buildLogPayload js strtod values (buildSchemaPayload cat) = .ok (.ok payload))
    {ci : ColumnInfo} (hci : ci ∈ cat.insertColumns) :
    ∃ v, entered js strtod values (schemaColumn cat ci) = some v ∧
      payload.find ci.name = if ci.name = lit "__proto__" then .null else v := by
  obtain ⟨out, rfl, hout⟩ := payloadMembers_of_buildLogPayload h
  have hnodup : ((cat.insertColumns.map (schemaColumn cat)).map (·.name)).Nodup := by
    rw [List.map_map]
    exact cat.insertColumns_nodup
  obtain ⟨v, hv, hfind⟩ := payloadMembers_find hout hnodup (fun col _ => find_nil col.name)
    _ (List.mem_map_of_mem hci)
  refine ⟨v, hv, ?_⟩
  split
  · next hproto => exact payloadMembers_find_of_notMem hout (.inr hproto)
  · next hproto => exact hfind hproto

/-- **When the payload has all required values**: none of them is left out. -/
theorem hasRequired_payload_iff
    (h : buildLogPayload js strtod values (buildSchemaPayload cat) = .ok (.ok payload)) :
    HasRequired cat payload ↔ ∀ ci ∈ cat.insertColumns, ci.notNull = true →
      ¬ LeftOut js values (schemaColumn cat ci) := by
  unfold HasRequired
  refine forall₂_congr fun ci hci => ?_
  refine imp_congr_right fun hrequired => ?_
  obtain ⟨v, hv, hfind⟩ := buildLogPayload_find h hci
  rw [hfind, ← Bool.not_eq_true, Json.isNull_iff, not_iff_not]
  unfold entered at hv
  cases htext : fieldText values (schemaColumn cat ci).name with
  | error what => rw [htext] at hv; cases hv
  | ok raw =>
    rw [htext] at hv
    have hnotOptional : (!(schemaColumn cat ci).notNull) = false := by
      rw [Bool.not_eq_false']
      exact hrequired
    rw [hnotOptional] at hv
    have hnull := coerce_required_eq_null_iff hv
    unfold LeftOut
    rw [htext]
    split
    · next hproto => exact iff_of_true rfl (.inl hproto)
    · next hproto =>
      rw [hnull]
      constructor
      · rintro ⟨hkind, hparse⟩
        exact .inr ⟨hkind, raw, rfl, hparse⟩
      · rintro (hproto' | ⟨hkind, raw', hraw', hparse⟩)
        · exact absurd hproto' hproto
        · cases hraw'
          exact ⟨hkind, hparse⟩

/-- **The server takes what the form has accepted**: the payload has what was entered, the
button could be pressed, and the entry is skipped if and only if the value of a required
column was left out. -/
theorem form_payload_inserted
    (h : buildLogPayload js strtod values (buildSchemaPayload cat) = .ok (.ok payload))
    {f : Faults} {w w' : WriterDatabase} {rs : List RowResult} (hb : w.conn.begun = none)
    (hcols : cat.insertColumns ≠ []) (hinsert : insertReport cat f [payload] w = .ret w' rs) :
    (∀ ci ∈ cat.insertColumns, ∃ v, entered js strtod values (schemaColumn cat ci) = some v ∧
      payload.find ci.name = if ci.name = lit "__proto__" then .null else v) ∧
    canSubmitLog js strtod values (buildSchemaPayload cat) = .ok true ∧
    ∃ r, rs = [r] ∧ (r.isSkipped = true ↔ ∃ ci ∈ cat.insertColumns, ci.notNull = true ∧
      LeftOut js values (schemaColumn cat ci)) := by
  refine ⟨fun ci hci => buildLogPayload_find h hci, ?_, ?_⟩
  · obtain ⟨out, -, hout⟩ := payloadMembers_of_buildLogPayload h
    rw [canSubmitLog, editableSchemaColumns_buildSchemaPayload, requiredFieldsValid_of_payload hout]
    cases hall : cat.insertColumns with
    | nil => exact absurd hall hcols
    | cons ci cis => rfl
  · obtain ⟨new, hstores⟩ := insert_stores hb hinsert
    have hall := hstores.steps hcols
    obtain ⟨r, hr, rfl⟩ : ∃ r, (r.isSkipped = false ↔ HasRequired cat payload) ∧ rs = [r] := by
      cases hall with
      | cons hr hrest =>
        cases hrest
        exact ⟨_, hr, rfl⟩
    refine ⟨r, rfl, ?_⟩
    rw [← Bool.not_eq_false, hr, hasRequired_payload_iff h]
    simp only [not_forall, not_not, exists_prop]

end

/-- `42` in an integer column is taken. -/
theorem form_payload_inserted_number : ∃ w' r,
    insertReport (typedCatalog (lit "INTEGER")) .none [.object [(lit "level", .integer 42)]]
      .fresh = .ret w' [r] ∧
    (r.isSkipped = true ↔ ∃ ci ∈ (typedCatalog (lit "INTEGER")).insertColumns,
      ci.notNull = true ∧ LeftOut integerRuntime [(lit "level", lit " 42 ")]
        (schemaColumn (typedCatalog (lit "INTEGER")) ci)) := by
  have hinsert : insertReport (typedCatalog (lit "INTEGER")) .none
      [.object [(lit "level", .integer 42)]] .fresh = .ret _ [.inserted] := rfl
  have htrim : jsTrim (lit " 42 ") = lit "42" := by decide
  have hfilled : ¬ (lit "42").isEmpty = true := by decide
  have hnumber : integerNumber integerRuntime (lit "42") = some 42 := by decide
  have hliteral : integerLiteral (lit "42") = some 42 := by decide
  have hjson : jsonNumber integerPlatform.realOfText (lit "42") = .integer 42 := by
    rw [jsonNumber, hliteral]
    exact if_pos (by decide)
  have hv : coerceFieldToJsonValue integerRuntime integerPlatform.realOfText .integer
      (lit " 42 ") true = some (.integer 42) := by
    unfold coerceFieldToJsonValue
    rw [htrim]
    dsimp only
    rw [if_neg hfilled, hnumber]
    exact congrArg some hjson
  have h : buildLogPayload integerRuntime integerPlatform.realOfText
      [(lit "level", lit " 42 ")] (buildSchemaPayload (typedCatalog (lit "INTEGER"))) =
        .ok (.ok (.object [(lit "level", .integer 42)])) := by
    have hkind : (schemaColumn (typedCatalog (lit "INTEGER")) (levelColumn (lit "INTEGER"))).kind =
        .integer := by decide
    rw [buildLogPayload, show editableSchemaColumns (buildSchemaPayload _) =
      [schemaColumn (typedCatalog (lit "INTEGER")) (levelColumn (lit "INTEGER"))] from rfl]
    unfold payloadMembers
    rw [show fieldText [(lit "level", lit " 42 ")] _ = .ok (lit " 42 ") from rfl]
    dsimp only
    rw [hkind, show (!(schemaColumn _ (levelColumn (lit "INTEGER"))).notNull) = true from rfl, hv]
    rfl
  obtain ⟨-, -, r, hr, hskipped⟩ := form_payload_inserted h rfl (List.cons_ne_nil _ _) hinsert
  cases hr
  exact ⟨_, _, hinsert, hskipped⟩

end LogLite
