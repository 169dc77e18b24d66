import Recto.Data.Records

/-!
# The record classes of the store

The dataclasses a backend stores, each with its fields in the order of the
source, their declared types, their defaults and the check of its construction;
and the wire form of a queued request, which reads them.
-/

namespace Recto
namespace State

inductive RecordClass where
  | appContext
  | actorContext
  | pendingRequest
  | phoneRegistration
  | session
  deriving DecidableEq, Repr

namespace RecordClass

abbrev Val := Value RecordClass

def required (name : String) (type : FieldType RecordClass) : Field RecordClass :=
  ⟨name, type, none⟩

/-- `name: type | None = None` -/
def optional (type : FieldType RecordClass) (name : String) : Field RecordClass :=
  ⟨name, .optional type, some .none⟩

def appContextFields : List (Field RecordClass) :=
  [required "app_id" .str, required "app_name" .str, ⟨"app_description", .str, some (.str "")⟩] ++
    ["app_url", "app_icon_url", "app_version"].map (optional .str)

def actorContextFields : List (Field RecordClass) :=
  [required "actor_id" .str, required "actor_name" .str, optional .str "actor_icon_url"]

def pendingRequestFields : List (Field RecordClass) :=
  [required "request_id" .str, required "kind" .str, required "service" .str,
    required "secret" .str, required "phone_id" .str, required "operation_description" .str,
    required "payload_hash_b64u" .str, required "child_pid" .int, required "child_argv0" .str,
    required "requested_at_unix" .int, required "expires_at_unix" .int] ++
  optional .int "eth_chain_id" ::
    ["eth_message_kind", "eth_address", "eth_derivation_path", "eth_message_text",
      "eth_typed_data_json", "eth_transaction_json",
      "btc_network", "btc_message_kind", "btc_address", "btc_derivation_path",
      "btc_message_text", "btc_psbt_base64", "btc_coin",
      "ed_chain", "ed_message_kind", "ed_address", "ed_derivation_path", "ed_message_text",
      "ed_payload_hex",
      "tron_network", "tron_message_kind", "tron_address", "tron_derivation_path",
      "tron_message_text", "tron_payload_hex",
      "cap_header_b64", "cap_payload_b64", "cap_agent_id"].map (optional .str) ++
  ["cap_grant_ttl_seconds", "cap_window_stamped_at_unix"].map (optional .int) ++
  [optional (.record appContext) "app_context", optional (.record actorContext) "actor_context"] ++
  ["candidate_profile_id", "candidate_kind", "candidate_display_name"].map (optional .str) ++
  ["candidate_derivation_purpose", "candidate_derivation_coin_type",
    "candidate_derivation_index"].map (optional .int) ++
  ["candidate_theme_hint", "candidate_scim_provider",
    "addev_profile_id", "addev_new_phone_id", "addev_new_phone_label",
    "revdev_profile_id", "revdev_phone_id_to_revoke",
    "revdev_revoker_label"].map (optional .str)

def phoneRegistrationFields : List (Field RecordClass) :=
  [required "phone_id" .str, required "device_label" .str, required "public_key_b64u" .str,
    required "supported_algorithms" (.tuple .str), required "registered_at_unix" .int,
    required "last_seen_unix" .int] ++
  ["push_token", "push_platform", "poll_public_key_b64u"].map (optional .str) ++
  [⟨"slot", .str, some (.str "primary")⟩,
    ⟨"member_bindings", .tuple (.pair .str .str), some (.tuple [])⟩]

def sessionFields : List (Field RecordClass) :=
  [required "service" .str, required "secret" .str, required "phone_id" .str, required "jwt" .str,
    required "expires_at_unix" .int, required "issued_at_unix" .int, required "max_uses" .int,
    ⟨"uses_so_far", .int, some (.int 0)⟩]

def fields : RecordClass → List (Field RecordClass)
  | appContext => appContextFields
  | actorContext => actorContextFields
  | pendingRequest => pendingRequestFields
  | phoneRegistration => phoneRegistrationFields
  | session => sessionFields

/-- The field is a string other than the empty one. -/
def isNonEmptyStr (fields : List (String × Val)) (name : String) : Bool :=
  match fields.lookup name with
  | some (.str s) => s != ""
  | _ => false

/-- `actor_icon_url` is absent or an http(s) URL. -/
def isIconUrl (fields : List (String × Val)) (name : String) : Bool :=
  match fields.lookup name with
  | some .none => true
  | some (.str s) =>
      (chars "https://").isPrefixOf (chars s) || (chars "http://").isPrefixOf (chars s)
  | _ => false

def postInit : RecordClass → List (String × Val) → Bool
  | appContext, fields => isNonEmptyStr fields "app_id" && isNonEmptyStr fields "app_name"
  | actorContext, fields =>
      isNonEmptyStr fields "actor_id" && isNonEmptyStr fields "actor_name" &&
        isIconUrl fields "actor_icon_url"
  | _, _ => true

theorem nodup_fields (cls : RecordClass) : ((fields cls).map Field.name).Nodup := by
  cases cls <;> decide +kernel

end RecordClass

open RecordClass (Val)

/-- The classes of the store. -/
def records : Schema RecordClass where
  fields := RecordClass.fields
  postInit := RecordClass.postInit
  nodup := RecordClass.nodup_fields

/-! ## Attributes -/

/-- A string attribute. -/
def strAttr? (v : Val) (name : String) : Option String :=
  match v.attr? name with
  | some (.str s) => some s
  | _ => none

/-- An integer attribute. -/
def intAttr? (v : Val) (name : String) : Option ℤ :=
  match v.attr? name with
  | some (.int n) => some n
  | _ => none

variable {fields : List (String × Val)}

theorem strAttr?_eq {cls : RecordClass} {name s : String}
    (h : fields.lookup name = some (.str s)) :
    strAttr? (.record cls fields) name = some s := by
  simp [strAttr?, Value.attr?, h]

theorem intAttr?_eq {cls : RecordClass} {name : String} {n : ℤ}
    (h : fields.lookup name = some (.int n)) :
    intAttr? (.record cls fields) name = some n := by
  simp [intAttr?, Value.attr?, h]

/-- A required string or integer field of a record has a value of its kind. -/
theorem exists_strAttr {cls : RecordClass} (h : HasType records (.record cls fields) (.record cls))
    {f : Field RecordClass} (hf : f ∈ records.fields cls) (htype : f.type = .str) :
    ∃ s, fields.lookup f.name = some (.str s) := by
  obtain ⟨v, hv, htyped⟩ := h.lookup_isSome hf
  rw [htype] at htyped
  cases htyped with
  | str s => exact ⟨s, hv⟩

theorem exists_intAttr {cls : RecordClass} (h : HasType records (.record cls fields) (.record cls))
    {f : Field RecordClass} (hf : f ∈ records.fields cls) (htype : f.type = .int) :
    ∃ n, fields.lookup f.name = some (.int n) := by
  obtain ⟨v, hv, htyped⟩ := h.lookup_isSome hf
  rw [htype] at htyped
  cases htyped with
  | int n => exact ⟨n, hv⟩

/-- An optional record is absent, or there. -/
theorem HasType.optional_record {v : Val} {cls : RecordClass}
    (h : HasType records v (.optional (.record cls))) :
    v = .none ∨ ∃ fields, v = .record cls fields ∧
      HasType records (.record cls fields) (.record cls) := by
  cases h with
  | absent _ => exact Or.inl rfl
  | present h =>
    cases h with
    | record hnames htyped hinit => exact Or.inr ⟨_, rfl, .record hnames htyped hinit⟩

/-! ## The wire form of a queued request -/

/-- When a field of the card stands on the wire. -/
inductive Emitted where
  | always
  | whenSet
  | whenOther (value : String)
  deriving DecidableEq, Repr

/-- The fields a card of the kind adds to its context. -/
def kindFields (kind : String) : List (String × Emitted) :=
  let cap := [("cap_payload_b64", Emitted.whenSet), ("cap_agent_id", Emitted.whenSet)]
  match kind with
  | "eth_sign" =>
      [("eth_chain_id", .always), ("eth_message_kind", .always), ("eth_address", .always),
        ("eth_derivation_path", .always), ("eth_message_text", .whenSet),
        ("eth_typed_data_json", .whenSet), ("eth_transaction_json", .whenSet)]
  | "btc_sign" =>
      [("btc_network", .always), ("btc_message_kind", .always), ("btc_address", .always),
        ("btc_derivation_path", .always), ("btc_message_text", .whenSet),
        ("btc_psbt_base64", .whenSet), ("btc_coin", .whenOther "btc")]
  | "ed_sign" =>
      [("ed_chain", .always), ("ed_message_kind", .always), ("ed_address", .always),
        ("ed_derivation_path", .always), ("ed_message_text", .whenSet),
        ("ed_payload_hex", .whenSet)]
  | "tron_sign" =>
      [("tron_network", .always), ("tron_message_kind", .always), ("tron_address", .always),
        ("tron_derivation_path", .always), ("tron_message_text", .whenSet),
        ("tron_payload_hex", .whenSet)]
  | "capability_request" =>
      [("cap_header_b64", .always), ("cap_payload_b64", .always), ("cap_agent_id", .whenSet)]
  | "profile_create" =>
      [("candidate_profile_id", .always), ("candidate_kind", .always),
        ("candidate_display_name", .always), ("candidate_derivation_purpose", .always),
        ("candidate_derivation_coin_type", .always), ("candidate_derivation_index", .always),
        ("candidate_theme_hint", .whenSet), ("candidate_scim_provider", .whenSet)] ++ cap
  | "profile_add_device" =>
      [("addev_profile_id", .always), ("addev_new_phone_id", .always),
        ("addev_new_phone_label", .whenSet)] ++ cap
  | "profile_revoke_device" =>
      [("revdev_profile_id", .always), ("revdev_phone_id_to_revoke", .always),
        ("revdev_revoker_label", .whenSet)] ++ cap
  | _ => []

/-- The named attributes of a value, those that are not `None` or that always stand. -/
def emit (v : Val) : List (String × Emitted) → Option (List (String × Val))
  | [] => some []
  | (name, when_) :: rest => do
      let x ← v.attr? name
      let others ← emit v rest
      match when_, x with
      | .whenSet, .none => pure others
      | .whenOther _, .none => pure others
      | .whenOther value, .str s => pure (if s = value then others else (name, x) :: others)
      | _, _ => pure ((name, x) :: others)

/-- The object of a context, when the card has one. -/
def emitContext (name : String) (v : Val) (fields : List (String × Emitted)) :
    Option (List (String × Val)) :=
  match v with
  | .none => some []
  | v => (emit v fields).map fun items => [(name, .dict items)]

/-- `_pending_to_wire`; `none` when an attribute is missing. -/
def pendingToWire (p : Val) : Option Val := do
  let base ← emit p [("child_pid", .always), ("child_argv0", .always),
    ("requested_at_unix", .always), ("operation_description", .always),
    ("payload_hash_b64u", .always)]
  let kind ← match ← p.attr? "kind" with
    | .str kind => emit p (kindFields kind)
    | _ => pure []
  let app ← emitContext "app_context" (← p.attr? "app_context")
    [("app_id", .always), ("app_name", .always), ("app_description", .always),
      ("app_url", .whenSet), ("app_icon_url", .whenSet), ("app_version", .whenSet)]
  let actor ← emitContext "actor_context" (← p.attr? "actor_context")
    [("actor_id", .always), ("actor_name", .always), ("actor_icon_url", .whenSet)]
  let head ← emit p [("request_id", .always), ("kind", .always), ("service", .always),
    ("secret", .always)]
  pure (.dict (head ++ [("context", .dict (base ++ kind ++ app ++ actor))]))

end State
end Recto
