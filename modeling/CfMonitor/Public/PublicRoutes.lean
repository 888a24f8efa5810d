/-
  The public routes of the Worker and their caches (`public.ts`): the node lists, the bootstrap
  payload, the settings, the ping tasks, and the history routes.

  1. **Data** (`PublicData`) — what the routes read: the rows of the database, the management snapshot
     of the object, the live answer, the histories.  It does not change during a run.

  2. **Caches** (`Worker`) — the client snapshot, the visibility of single nodes, the ping tasks, the
     settings, the metadata and history answers of this worker, and the answers at the edge.

  3. **Routes** (`serve`) — an administrator's request with `include_hidden` answers `no-store`; it may
     fill the visibility of the nodes and the ping tasks, and no other cache.

  A request reads the clock once.  The limiter is a parameter: it sees its calls and nothing else.
-/
import CfMonitor.Public.ClientOverlay
import CfMonitor.Public.HistoryRequests
import Mathlib.Algebra.Order.Floor.Ring
import Mathlib.Data.List.Sort

namespace CfMonitor.Public

open CfMonitor.Lib CfMonitor.Live
open CfMonitor.Records (TimeText)

/-! ## Data -/

structure PingTask where
  id : Int
  name : String
  clients : List String
  allClients : Bool
  type : String
  target : String
  intervalSec : Int
  sortOrder : Int
  deriving DecidableEq

/-- What the public routes read. -/
structure PublicData where
  /-- `cfm_public_clients`. -/
  rows : List ClientRow
  /-- What the object answers to `/admin-clients-snapshot`, if it answers. -/
  overlay : Option AdminClientsSnapshot
  pingTasks : List PingTask
  settings : Fields
  /-- What the object answers to `/live`, with or without the hidden nodes. -/
  live : (includeHidden : Bool) → Json
  records : HistoryCall → Json

/-- What the routes use from elsewhere; `number` is `Number(value)` where it is finite. -/
structure RouteRules where
  list : ListRules
  time : TimeText
  number : Option Json → Option ℚ

/-! ## Caches -/

structure Cached (α : Type) where
  value : α
  expiresAt : Int

/-- `cacheIsFresh`. -/
def Cached.fresh {α : Type} (entry : Cached α) (now : Int) : Bool := decide (now < entry.expiresAt)

def PUBLIC_METADATA_CACHE_MS : Int := 30 * 1000
def PUBLIC_HISTORY_CACHE_MS : Int := 10 * 1000
def PUBLIC_HISTORY_CACHE_MAX_ENTRIES : Nat := 256
def PUBLIC_METADATA_CACHE_MAX_ENTRIES : Nat := PUBLIC_HISTORY_CACHE_MAX_ENTRIES

/-- `PublicClientsSnapshot`. -/
structure ClientsSnapshot where
  clients : List ClientRow
  nodes : List ClientRow
  publicClientIds : List String
  expiresAt : Int

/-- The payload of `/public/bootstrap`. -/
structure Bootstrap where
  settings : Fields
  clients : List ClientRow
  nodes : List ClientRow
  live : Json
  metadataVersion : String
  snapshotAt : Int
  serverTime : Int

/-- The body of an answer. -/
inductive PublicBody where
  | clients (rows : List ClientRow)
  | nodes (rows : List ClientRow)
  | settings (fields : Fields)
  | bootstrap (payload : Bootstrap)
  | pingTasks (tasks : List PingTask)
  | history (value : Json)

/-- The path of a request, and the parameters by which its answer is known. -/
structure CacheKey where
  bucket : String
  path : String
  params : Query
  deriving DecidableEq

/-- The memory of the worker, the cache at the edge, and the limiter. -/
structure Worker (L : Type) where
  settings : Option (Cached Fields)
  clientsSnapshot : Option ClientsSnapshot
  pingTasks : Option (Cached (List PingTask))
  metadata : List (String × Cached PublicBody)
  history : List (CacheKey × Cached PublicBody)
  visibility : List (String × Cached Bool)
  edge : List (CacheKey × Cached PublicBody)
  limiter : L

/-- Empty caches. -/
def Worker.empty {L : Type} (limiter : L) : Worker L := ⟨none, none, none, [], [], [], [], limiter⟩

/-! ## Requests and answers -/

inductive PublicRoute where
  | clients
  | nodes
  | settings
  | bootstrap
  | pingTasks
  | history (name : HistoryRouteName)

structure PublicRequest where
  route : PublicRoute
  /-- The path as it stands in the URL. -/
  path : String
  query : Query
  /-- `hasAdminSession`. -/
  session : Bool
  ip : String
  now : Int
  /-- The edge has lost what it had for this URL. -/
  edgeLost : Bool

/-- `c.req.query('include_hidden') === '1' && await hasAdminSession(c)`. -/
def PublicRequest.includeHidden (req : PublicRequest) : Bool :=
  decide (Assoc.get? req.query "include_hidden" = some "1") && req.session

/-- `isFreshPublicMetadataRequest`. -/
def PublicRequest.fresh (req : PublicRequest) : Bool := (given req.query "_fresh").isSome

/-- `X-CF-VPS-Monitor-Public-Cache`. -/
inductive CacheState where
  | miss
  | memoryHit
  | edgeHit
  deriving DecidableEq

inductive PublicAnswer where
  | publicJson (body : PublicBody) (maxAgeSeconds : Nat) (cacheState : CacheState)
  /-- `no-store`. -/
  | privateJson (body : PublicBody)
  | badRequest (error : String)
  | limited (retryAfter : Int)

/-- A call of the limiter: of the object, or of the worker's own. -/
structure LimitCall where
  remote : Bool
  bucket : String
  ip : String
  maxRequests : Nat
  now : Int

/-- A limiter: the time to wait if it refuses. -/
abbrev Limiter (L : Type) := L → LimitCall → L × Option Int

/-! ## Keys -/

/-- `url.searchParams.sort()`. -/
def sortParams (query : Query) : Query := query.insertionSort fun a b => a.1 ≤ b.1

/-- `publicHistoryCacheKey`. -/
def publicHistoryCacheKey (req : PublicRequest) (bucket : String) : CacheKey :=
  ⟨bucket, req.path, sortParams (req.query.filter fun p => decide (p.1 ≠ "_fresh"))⟩

/-- `publicCacheRequest`: the URL at the edge. -/
def publicCacheRequest (req : PublicRequest) : CacheKey := ⟨"", req.path, sortParams req.query⟩

/-- `publicMetadataEdgeCacheRequest`: none of these routes has a parameter that counts. -/
def publicMetadataEdgeCacheRequest (req : PublicRequest) : CacheKey := ⟨"", req.path, []⟩

section Program

variable {L : Type} (rules : RouteRules) (limiter : Limiter L) (data : PublicData)

/-! ## The limiter -/

def localPublicApiRateLimit (w : Worker L) (req : PublicRequest) (bucket : String) (maxRequests : Nat) :
    Option PublicAnswer × Worker L :=
  let result := limiter w.limiter ⟨false, bucket, req.ip, maxRequests, req.now⟩
  (result.2.map .limited, { w with limiter := result.1 })

def publicApiRateLimit (w : Worker L) (req : PublicRequest) (bucket : String) (maxRequests : Nat) :
    Option PublicAnswer × Worker L :=
  let result := limiter w.limiter ⟨true, bucket, req.ip, maxRequests, req.now⟩
  (result.2.map .limited, { w with limiter := result.1 })

/-! ## What the answers are made of -/

/-- `{ ...client, tags: client.tags ? client.tags.split(';').filter(Boolean) : [] }`. -/
def toPublicNode (client : ClientRow) : ClientRow :=
  let tags := match Assoc.get? client.fields "tags" with
    | some (.str text) => (splitBy ';' text).filter fun tag => decide (tag ≠ "")
    | _ => []
  { client with fields := Assoc.set client.fields "tags" (.arr (tags.map .str)) }

/-- The clients after the overlay. -/
def overlaidClients (includeHidden : Bool) : List ClientRow :=
  applyPublicClientsOverlay rules.list (data.rows.map (toPublicClient rules.list)) data.overlay includeHidden

/-- The snapshot that `getPublicClientsSnapshot` computes. -/
def computeSnapshot (now : Int) (includeHidden : Bool) : ClientsSnapshot :=
  let publicClients := overlaidClients rules data includeHidden
  { clients := publicClients
    nodes := publicClients.map toPublicNode
    publicClientIds := publicClients.map ClientRow.uuid
    expiresAt := now + PUBLIC_METADATA_CACHE_MS }

/-- The visibility of every row of the database. -/
def rememberVisibility (snapshot : ClientsSnapshot) (visibility : List (String × Cached Bool)) :
    List (String × Cached Bool) :=
  let visible := (snapshot.clients.filter fun client => !isHidden client).map ClientRow.uuid
  data.rows.foldl
    (fun visibility row => Assoc.set visibility row.uuid ⟨decide (row.uuid ∈ visible), snapshot.expiresAt⟩)
    visibility

def getPublicClientsSnapshot (w : Worker L) (now : Int) (force includeHidden : Bool) :
    ClientsSnapshot × Worker L :=
  match w.clientsSnapshot.filter fun s => !includeHidden && !force && decide (now < s.expiresAt) with
  | some snapshot => (snapshot, w)
  | none =>
    let snapshot := computeSnapshot rules data now includeHidden
    (snapshot, { w with
      visibility := rememberVisibility data snapshot w.visibility
      -- a snapshot with hidden nodes is not kept
      clientsSnapshot := if includeHidden then w.clientsSnapshot else some snapshot })

def getPublicSettings (w : Worker L) (now : Int) (force : Bool) : Fields × Worker L :=
  match w.settings.filter fun entry => !force && entry.fresh now with
  | some entry => (entry.value, w)
  | none => (data.settings, { w with settings := some ⟨data.settings, now + PUBLIC_METADATA_CACHE_MS⟩ })

def boundedPublicPingIntervalSec (settings : Fields) : Int :=
  match rules.number (Assoc.get? settings "ping_record_persist_interval_sec") with
  | some intervalSec => min (max ⌊intervalSec⌋ 60) 3600
  | none => 300

def toPublicPingTask (task : PingTask) (publicClientIds : List String) : Option PingTask :=
  if task.allClients then some { task with clients := [] }
  else
    let clients := task.clients.filter fun uuid => decide (uuid ∈ publicClientIds)
    if clients.isEmpty then none else some { task with clients := clients }

def getPublicPingTasks (w : Worker L) (publicClientIds : List String) (pingIntervalSec now : Int)
    (force : Bool) : List PingTask × Worker L :=
  let entry := (w.pingTasks.filter fun entry => !force && entry.fresh now).getD
    ⟨data.pingTasks, now + PUBLIC_METADATA_CACHE_MS⟩
  (entry.value.filterMap fun task =>
      (toPublicPingTask task publicClientIds).map fun task => { task with intervalSec := pingIntervalSec },
    { w with pingTasks := some entry })

/-! ## Answers from the caches -/

/-- Room for one more entry: the oldest one goes. -/
def makeRoom {κ α : Type} (maxEntries : Nat) (entries : List (κ × α)) : List (κ × α) :=
  if maxEntries ≤ entries.length then entries.tail else entries

/-- `caches.default.match`. -/
def matchEdge (w : Worker L) (req : PublicRequest) (key : CacheKey) (maxAgeSeconds : Nat) :
    Option PublicAnswer :=
  if req.edgeLost then none
  else ((Assoc.get? w.edge key).filter fun entry => entry.fresh req.now).map fun entry =>
    .publicJson entry.value maxAgeSeconds .edgeHit

/-- `caches.default.put`. -/
def putEdge (w : Worker L) (req : PublicRequest) (key : CacheKey) (body : PublicBody)
    (maxAgeSeconds : Nat) : Worker L :=
  { w with edge := Assoc.set w.edge key ⟨body, req.now + maxAgeSeconds * 1000⟩ }

def getPublicMetadataResponse (w : Worker L) (req : PublicRequest) : Option PublicAnswer × Worker L :=
  match Assoc.get? w.metadata req.path with
  | none => (matchEdge w req (publicMetadataEdgeCacheRequest req) 30, w)
  | some entry =>
    if entry.fresh req.now then (some (.publicJson entry.value 30 .memoryHit), w)
    else (matchEdge w req (publicMetadataEdgeCacheRequest req) 30,
      { w with metadata := Assoc.erase w.metadata req.path })

def setPublicMetadataResponse (w : Worker L) (req : PublicRequest) (body : PublicBody) (cacheEdge : Bool) :
    PublicAnswer × Worker L :=
  let metadata := Assoc.set (makeRoom PUBLIC_METADATA_CACHE_MAX_ENTRIES w.metadata) req.path
    ⟨body, req.now + PUBLIC_METADATA_CACHE_MS⟩
  let w : Worker L := { w with metadata := metadata }
  (.publicJson body 30 .miss,
    if cacheEdge then putEdge w req (publicMetadataEdgeCacheRequest req) body 30 else w)

def getPublicHistoryCache (w : Worker L) (req : PublicRequest) (key : CacheKey) :
    Option PublicAnswer × Worker L :=
  match Assoc.get? w.history key with
  | none => (matchEdge w req (publicCacheRequest req) 10, w)
  | some entry =>
    if entry.fresh req.now then (some (.publicJson entry.value 10 .memoryHit), w)
    else (matchEdge w req (publicCacheRequest req) 10, { w with history := Assoc.erase w.history key })

def setPublicHistoryCache (w : Worker L) (req : PublicRequest) (key : CacheKey) (body : PublicBody) :
    PublicAnswer × Worker L :=
  let history := Assoc.set (makeRoom PUBLIC_HISTORY_CACHE_MAX_ENTRIES w.history) key
    ⟨body, req.now + PUBLIC_HISTORY_CACHE_MS⟩
  let w : Worker L := { w with history := history }
  (.publicJson body 10 .miss, putEdge w req (publicCacheRequest req) body 10)

/-! ## The metadata routes -/

/-- In what the metadata routes differ. -/
structure MetadataRoute (L : Type) where
  bucket : String
  /-- Whether `_fresh` counts. -/
  takesFresh : Bool
  /-- Whether `include_hidden` counts. -/
  takesHidden : Bool
  compute : (w : Worker L) → (fresh includeHidden : Bool) → PublicBody × Worker L

/-- A metadata route: from the caches, else from the limiter's leave and the data. -/
def serveMetadata (route : MetadataRoute L) (w : Worker L) (req : PublicRequest) : PublicAnswer × Worker L :=
  let fresh := route.takesFresh && req.fresh
  let includeHidden := route.takesHidden && req.includeHidden
  let looked : Option PublicAnswer × Worker L :=
    if fresh || includeHidden then (none, w) else getPublicMetadataResponse w req
  match looked.1 with
  | some cached =>
    let limit := localPublicApiRateLimit limiter looked.2 req ("metadata:" ++ route.bucket) 120
    (limit.1.getD cached, limit.2)
  | none =>
    let limit := publicApiRateLimit limiter looked.2 req ("metadata:" ++ route.bucket) 120
    match limit.1 with
    | some refused => (refused, limit.2)
    | none =>
      let computed := route.compute limit.2 fresh includeHidden
      if includeHidden then (.privateJson computed.1, computed.2)
      else setPublicMetadataResponse computed.2 req computed.1 (!fresh)

def clientsRoute (now : Int) : MetadataRoute L where
  bucket := "clients"
  takesFresh := true
  takesHidden := true
  compute := fun w fresh includeHidden =>
    let snapshot := getPublicClientsSnapshot rules data w now fresh includeHidden
    (.clients snapshot.1.clients, snapshot.2)

def nodesRoute (now : Int) : MetadataRoute L where
  bucket := "nodes"
  takesFresh := false
  takesHidden := true
  compute := fun w _ includeHidden =>
    let snapshot := getPublicClientsSnapshot rules data w now false includeHidden
    (.nodes snapshot.1.nodes, snapshot.2)

def settingsRoute (now : Int) : MetadataRoute L where
  bucket := "settings"
  takesFresh := true
  takesHidden := false
  compute := fun w fresh _ =>
    let settings := getPublicSettings data w now fresh
    (.settings settings.1, settings.2)

def bootstrapRoute (now : Int) : MetadataRoute L where
  bucket := "bootstrap"
  takesFresh := true
  takesHidden := true
  compute := fun w fresh includeHidden =>
    let settings := getPublicSettings data w now fresh
    let snapshot := getPublicClientsSnapshot rules data settings.2 now fresh includeHidden
    (.bootstrap
      { settings := settings.1
        clients := snapshot.1.clients
        nodes := snapshot.1.nodes
        live := data.live includeHidden
        -- when the snapshot was computed, so to say
        metadataVersion := toString snapshot.1.expiresAt
        snapshotAt := now
        serverTime := now }, snapshot.2)

def pingTasksRoute (now : Int) : MetadataRoute L where
  bucket := "ping-tasks"
  takesFresh := true
  takesHidden := true
  compute := fun w fresh includeHidden =>
    let snapshot := getPublicClientsSnapshot rules data w now fresh includeHidden
    let settings := getPublicSettings data snapshot.2 now fresh
    let tasks := getPublicPingTasks data settings.2 snapshot.1.publicClientIds
      (boundedPublicPingIntervalSec rules settings.1) now fresh
    (.pingTasks tasks.1, tasks.2)

/-! ## The history routes -/

/-- What `preparePublicHistoryRequest` finds once the limiter has let the request pass: whether the node
    is visible, and an answer from the caches. -/
def prepareVisibility (w : Worker L) (req : PublicRequest) (key : CacheKey) (uuid : String) :
    (Bool × Option PublicAnswer) × Worker L :=
  match (Assoc.get? w.visibility uuid).filter fun entry => !req.includeHidden && entry.fresh req.now with
  | some entry =>
    if entry.value then
      let cached := getPublicHistoryCache w req key
      ((true, cached.1), cached.2)
    else ((false, none), w)
  | none =>
    let snapshot := getPublicClientsSnapshot rules data w req.now false req.includeHidden
    if uuid ∈ snapshot.1.publicClientIds then
      if req.includeHidden then ((true, none), snapshot.2)
      else
        let cached := getPublicHistoryCache snapshot.2 req key
        ((true, cached.1), cached.2)
    else ((false, none), snapshot.2)

/-- `publicHistoryResult`, for a value or an error. -/
def publicHistoryResult (w : Worker L) (req : PublicRequest) (key : CacheKey) (value : Except String Json) :
    PublicAnswer × Worker L :=
  match value with
  | .error error => (.badRequest error, w)
  | .ok value =>
    if req.includeHidden then (.privateJson (.history value), w)
    else setPublicHistoryCache w req key (.history value)

/-- A history route. -/
def serveHistory (w : Worker L) (req : PublicRequest) (name : HistoryRouteName) : PublicAnswer × Worker L :=
  match historyRoute rules.time name req.query with
  | .error error => (.badRequest error, w)
  | .ok route =>
    let key := publicHistoryCacheKey req route.bucket
    let limit := publicApiRateLimit limiter w req ("history:" ++ route.bucket) 60
    match limit.1 with
    | some refused => (refused, limit.2)
    | none =>
      let prepared := prepareVisibility rules data limit.2 req key route.uuid
      match prepared.1.2 with
      | some cached => (cached, prepared.2)
      | none =>
        publicHistoryResult prepared.2 req key
          (if prepared.1.1 then route.visible.map (HistoryRead.value data.records) else route.invisible)

/-! ## Runs -/

/-- One request. -/
def serve (w : Worker L) (req : PublicRequest) : PublicAnswer × Worker L :=
  match req.route with
  | .clients => serveMetadata limiter (clientsRoute rules data req.now) w req
  | .nodes => serveMetadata limiter (nodesRoute rules data req.now) w req
  | .settings => serveMetadata limiter (settingsRoute data req.now) w req
  | .bootstrap => serveMetadata limiter (bootstrapRoute rules data req.now) w req
  | .pingTasks => serveMetadata limiter (pingTasksRoute rules data req.now) w req
  | .history name => serveHistory rules limiter data w req name

/-- The answers to the visitors, in a run of requests: to all that may not see the hidden nodes. -/
def visitorAnswers (w : Worker L) : List PublicRequest → List PublicAnswer
  | [] => []
  | req :: rest =>
    let served := serve rules limiter data w req
    if req.includeHidden then visitorAnswers served.2 rest else served.1 :: visitorAnswers served.2 rest

end Program

end CfMonitor.Public
