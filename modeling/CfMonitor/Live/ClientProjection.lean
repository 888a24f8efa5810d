/-
  A row of `clients` on its way to the live-data object (`cfm_pending_client_syncs`,
  `normalizeClientBooleans`, `normalizeAgentAuthSnapshot`).

  1. **Row** — the columns that the trigger `queue_client_control_change` watches, and the others as
     `to_jsonb` writes them.  Instants are the texts of `to_jsonb`.

  2. **Projection** — the object of a pending change: `to_jsonb(c)` with the token as a hash.

  3. **Object** — what the live-data object makes of it.  It names its fields one by one, so a field
     that it does not name is lost here.
-/
import CfMonitor.Live.ClientSync

namespace CfMonitor.Live

open CfMonitor.Lib

/-! ## Row -/

/-- A `double precision`. -/
inductive SqlDouble where
  | finite (value : ℚ)
  | nan
  | infinite (negative : Bool)
  deriving DecidableEq

/-- `to_jsonb` of a `double precision`. -/
def SqlDouble.toJson : SqlDouble → Json
  | .finite value => .num (.finite value)
  | .nan => .str "NaN"
  | .infinite false => .str "Infinity"
  | .infinite true => .str "-Infinity"

/-- The columns that `queue_client_control_change` watches. -/
structure ClientControls where
  token : Option String
  tokenHash : Option String
  tokenRotatedAt : Option String
  name : String
  hidden : Int
  sortOrder : Int
  remark : String
  publicRemark : String
  group : String
  tags : String
  ipv4 : String
  ipv6 : String
  region : String
  price : SqlDouble
  billingCycle : Int
  autoRenewal : Int
  currency : String
  expiredAt : Option String
  trafficLimit : Int
  trafficLimitType : String
  trafficResetDay : Int
  deriving DecidableEq

/-- A row of `clients`. -/
structure SqlClient where
  uuid : String
  controls : ClientControls
  other : Fields

/-! ## Projection -/

/-- What the projection uses from elsewhere: the digest of a token, and the double that a `bigint`
    becomes when it is parsed. -/
structure ProjectionRules where
  sha256Hex : String → String
  double : Int → ℚ

/-- A nullable text. -/
def textOrNull : Option String → Json
  | some text => .str text
  | none => .null

/-- `nullif(text, '')`. -/
def nullIfEmpty (text : Option String) : Option String := text.filter fun t => t ≠ ""

namespace ProjectionRules

variable (rules : ProjectionRules)

/-- The hash of a row, of its token where it has none. -/
def hashOf (controls : ClientControls) : String :=
  match nullIfEmpty controls.tokenHash with
  | some hash => hash
  | none =>
    match nullIfEmpty controls.token with
    | some token => "sha256:" ++ rules.sha256Hex token
    | none => ""

/-- The watched columns in `to_jsonb(c) || jsonb_build_object('token', '', 'token_hash', …)`. -/
def controlFields (controls : ClientControls) : Fields :=
  [("token", .str ""), ("token_hash", .str (rules.hashOf controls)),
   ("token_rotated_at", textOrNull controls.tokenRotatedAt),
   ("name", .str controls.name),
   ("hidden", .int controls.hidden),
   ("sort_order", .int controls.sortOrder),
   ("remark", .str controls.remark),
   ("public_remark", .str controls.publicRemark),
   ("group", .str controls.group),
   ("tags", .str controls.tags),
   ("ipv4", .str controls.ipv4),
   ("ipv6", .str controls.ipv6),
   ("region", .str controls.region),
   ("price", controls.price.toJson),
   ("billing_cycle", .int controls.billingCycle),
   ("auto_renewal", .int controls.autoRenewal),
   ("currency", .str controls.currency),
   ("expired_at", textOrNull controls.expiredAt),
   ("traffic_limit", .num (.finite (rules.double controls.trafficLimit))),
   ("traffic_limit_type", .str controls.trafficLimitType),
   ("traffic_reset_day", .int controls.trafficResetDay)]

/-- The object of a pending change of a row. -/
def projection (row : SqlClient) : Fields :=
  ("uuid", .str row.uuid) :: (rules.controlFields row.controls ++ row.other)

end ProjectionRules

/-! ## Object -/

/-- `readRpcBoolean` and `booleanField`. -/
def readBoolean : Option Json → Bool
  | some (.bool b) => b
  | some (.num (.finite x)) => decide (x ≠ 0)
  | some (.num (.infinite _)) => true
  | some (.str s) => (trim s).toLower = "true" || (trim s).toLower = "1"
  | _ => false

/-- `normalizeClientBooleans`. -/
def normalizeClientBooleans (client : Fields) : Fields :=
  let known (field : String) (fields : Fields) : Fields :=
    if (Assoc.get? client field).isSome then
      Assoc.set fields field (.bool (readBoolean (Assoc.get? client field)))
    else fields
  known "auto_renewal" (known "hidden" client)

/-- `stringField`. -/
def stringField (source : Fields) (key : String) : String := (Json.str? (Assoc.get? source key)).getD ""

/-- `nullableStringField`. -/
def nullableStringField (source : Fields) (key : String) : Option String :=
  (Json.str? (Assoc.get? source key)).filter fun value => trim value ≠ ""

/-- `numberField`. -/
def numberField (source : Fields) (key : String) : ℚ :=
  match Assoc.get? source key with
  | some (.num (.finite x)) => x
  | _ => 0

/-- `text || fallback`. -/
def orText (text fallback : String) : String := if text = "" then fallback else text

/-- The fields of a normalised record. -/
def agentAuthFields (value : Fields) (uuid tokenHash : String) : Fields :=
  let text (key : String) : String × Json := (key, .str (stringField value key))
  let number (key : String) : String × Json := (key, .num (.finite (numberField value key)))
  let flag (key : String) : String × Json := (key, .bool (readBoolean (Assoc.get? value key)))
  let nullable (key : String) : String × Json := (key, textOrNull (nullableStringField value key))
  [("uuid", .str uuid), ("token", .str ""), ("token_hash", .str tokenHash),
   nullable "token_last_used_at", text "token_last_used_ip", nullable "token_rotated_at",
   ("name", .str (orText (stringField value "name") uuid)),
   text "cpu_name", text "virtualization", text "arch", number "cpu_cores", text "os",
   text "kernel_version", text "gpu_name", text "ipv4", text "ipv6", text "region", text "remark",
   text "public_remark", number "mem_total", number "swap_total", number "disk_total",
   text "version", number "price", number "billing_cycle", flag "auto_renewal", text "currency",
   text "expired_at", text "group", text "tags", flag "hidden", number "traffic_limit",
   ("traffic_limit_type", .str (orText (stringField value "traffic_limit_type") "sum")),
   text "created_at", text "updated_at"] ++
  match Assoc.get? value "sort_order" with
  | some (.num (.finite x)) => [("sort_order", .num (.finite x))]
  | _ => []

/-- `normalizeAgentAuthSnapshot` of an object. -/
def normalizeAgentAuthSnapshot (value : Fields) : Option AgentAuthSnapshot :=
  let uuid := trim (stringField value "uuid")
  let tokenHash := trim (stringField value "token_hash")
  if uuid = "" ∨ tokenHash = "" then none
  else some {
    uuid
    tokenHash
    tokenRotatedAt := (nullableStringField value "token_rotated_at").getD ""
    createdAt := stringField value "created_at"
    updatedAt := stringField value "updated_at"
    payload := agentAuthFields value uuid tokenHash }

end CfMonitor.Live
