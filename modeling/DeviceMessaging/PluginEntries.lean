import DeviceMessaging.Handlers
import DeviceMessaging.JsValues

namespace DeviceMessaging

section Tuning

/-- A config `plugins[]` entry. -/
structure PluginEntry where
  id : PluginId
  tuning : Option Members := none

/-- What plugins are constructed with besides their entries: the environment,
what the ChirpStack client's constructor throws, and what is said of a refused tuning. -/
structure Environment where
  env : String → Option String
  clientError : Option String
  tuningIssues : Members → String

variable (environment : Environment)

def requireEnvKeys (pluginId : String) (keys : List String) : Except String Unit :=
  let missing := keys.filter fun key =>
    (environment.env key).all fun value => trimText value.toList = []
  if missing = [] then .ok ()
  else .error ("MISSING env for plugin \"" ++ pluginId ++ "\": " ++ ", ".intercalate missing)

/-- `z.number().int().positive()`, whose integers are the safe ones. -/
def positiveInt (value : JsValue) : Option { n : Nat // 0 < n } :=
  match value with
  | .num x =>
    if h : 0 < x.value.num.toNat ∧ x.value.den = 1 ∧ x.value.num ≤ 9007199254740991 then
      some ⟨x.value.num.toNat, h.1⟩
    else none
  | _ => none

def tuningField (tuning : Members) (name : String) (default : { n : Nat // 0 < n }) :
    Option { n : Nat // 0 < n } :=
  match member tuning name with
  | none => some default
  | some value => positiveInt value

def tuningKeys : List String :=
  ["nsInFlightTimeoutMs", "relayNodeInFlightTimeoutMs", "deviceInFlightTimeoutMs",
    "initialPollDelayMs"]

/-- `tuningOverrideSchema`, over the defaults. -/
def overridden (tuning : Members) : Option PluginTuning :=
  let defaults := DEFAULT_PLUGIN_TUNING
  if ∀ m ∈ tuning, m.1 ∈ tuningKeys.map String.toList then do
    let ns ← tuningField tuning "nsInFlightTimeoutMs"
      ⟨defaults.nsInFlightTimeoutMs, defaults.ns_pos⟩
    let relayNode ← tuningField tuning "relayNodeInFlightTimeoutMs"
      ⟨defaults.relayNodeInFlightTimeoutMs, defaults.relayNode_pos⟩
    let device ← tuningField tuning "deviceInFlightTimeoutMs"
      ⟨defaults.deviceInFlightTimeoutMs, defaults.device_pos⟩
    let poll ← tuningField tuning "initialPollDelayMs"
      ⟨defaults.initialPollDelayMs, defaults.poll_pos⟩
    return ⟨ns.1, relayNode.1, device.1, poll.1, ns.2, relayNode.2, device.2, poll.2⟩
  else none

def mergePluginTuning (entry : PluginEntry) : Except String PluginTuning :=
  match entry.tuning with
  | none => .ok DEFAULT_PLUGIN_TUNING
  | some tuning =>
    match overridden tuning with
    | some merged => .ok merged
    | none => .error ("Invalid tuning for plugin \"" ++ entry.id ++ "\": " ++
        environment.tuningIssues tuning)

end Tuning

section Factories

variable (environment : Environment)

/-- A plugin of a given id. -/
abbrev PluginOf (id : PluginId) := { plugin : DeviceMessagingPlugin // plugin.id = id }

def createCalinApiV1Plugin (entry : PluginEntry) : Except String (PluginOf "calin-api-v1") := do
  requireEnvKeys environment "calin-api-v1" ["CALIN_API_V1_URL", "CALIN_API_V1_COMPANY_NAME",
    "CALIN_API_V1_ADMIN_USERNAME", "CALIN_API_V1_ADMIN_PASSWORD", "CALIN_API_V1_POS_USERNAME",
    "CALIN_API_V1_POS_PASSWORD", "CALIN_API_V1_MAINTENANCE_USERNAME",
    "CALIN_API_V1_MAINTENANCE_PASSWORD"]
  let tuning ← mergePluginTuning environment entry
  return ⟨.delivery (calinApiV1 tuning), rfl⟩

def createCalinApiV2Plugin (entry : PluginEntry) : Except String (PluginOf "calin-api-v2") := do
  requireEnvKeys environment "calin-api-v2" ["CALIN_API_V2_URL", "CALIN_API_V2_COMPANY_NAME",
    "CALIN_API_V2_CUSTOMER_ID", "CALIN_API_V2_ADMIN_USERNAME", "CALIN_API_V2_ADMIN_PASSWORD",
    "CALIN_API_V2_POS_PASSWORD"]
  let tuning ← mergePluginTuning environment entry
  return ⟨.delivery (calinApiV2 tuning), rfl⟩

def createChirpstackClient : Except String Unit := do
  requireEnvKeys environment "chirpstack" ["CHIRPSTACK_API_URL", "CHIRPSTACK_API_TOKEN",
    "CHIRPSTACK_APPLICATION_ID", "CHIRPSTACK_PROFILE_ID", "CHIRPSTACK_APP_KEY"]
  match environment.clientError with
  | some message => throw message
  | none => return ()

def createCalinChirpstackPlugin (entry : PluginEntry) :
    Except String (PluginOf "calin-chirpstack") := do
  createChirpstackClient environment
  let tuning ← mergePluginTuning environment entry
  return ⟨.delivery (calinChirpstack tuning), rfl⟩

def createNxtStsPlugin (_entry : PluginEntry) : Except String (PluginOf "nxt-sts") := do
  requireEnvKeys environment "nxt-sts" ["NXT_STS_URL"]
  return ⟨.tokenOnly "nxt-sts", rfl⟩

def ENQUEUEABLE_COMMAND_TYPES : List CommandType :=
  [.readVoltage, .readCurrent, .readPower, .readPowerLimit, .readCredit, .readVersion, .readDate,
    .readTime, .turnOn, .turnOff, .setDate, .setTime, .clearCredit, .clearTamper, .setPowerLimit,
    .topUpKwh, .deliverPreexistingToken]

def parseStubError (err : VendorError) : FailureContext where
  reason := err.message

def stubPush (tuning : PluginTuning) : DeliveryPlugin where
  id := "stub-push"
  deliveryPattern := .PUSH
  supportedCommandTypes := ENQUEUEABLE_COMMAND_TYPES
  admission := .spacing 2000
  tuning := tuning
  admissionNode networkId _ := ("network", networkPart networkId)
  parseError := parseStubError
  hasGetRemoteStatus := true

def stubPull (tuning : PluginTuning) : DeliveryPlugin where
  id := "stub-pull"
  deliveryPattern := .PULL
  supportedCommandTypes := ENQUEUEABLE_COMMAND_TYPES
  admission := .concurrency 5
  tuning := tuning
  admissionNode _ device := ("relayNode", relayNodePart device)
  parseError := parseStubError

def createStubPushPlugin (entry : PluginEntry) : Except String (PluginOf "stub-push") := do
  let tuning ← mergePluginTuning environment entry
  return ⟨.delivery (stubPush tuning), rfl⟩

def createStubPullPlugin (entry : PluginEntry) : Except String (PluginOf "stub-pull") := do
  let tuning ← mergePluginTuning environment entry
  return ⟨.delivery (stubPull tuning), rfl⟩

/-- A catalog row. -/
structure Factory where
  id : PluginId
  create : Environment → PluginEntry → Except String (PluginOf id)

def PLUGIN_CATALOG : List Factory :=
  [⟨"calin-api-v1", createCalinApiV1Plugin⟩, ⟨"calin-api-v2", createCalinApiV2Plugin⟩,
    ⟨"calin-chirpstack", createCalinChirpstackPlugin⟩, ⟨"nxt-sts", createNxtStsPlugin⟩,
    ⟨"stub-push", createStubPushPlugin⟩, ⟨"stub-pull", createStubPullPlugin⟩]

end Factories

namespace PluginRegistry

def ids (registry : PluginRegistry) : List PluginId :=
  registry.plugins.map DeviceMessagingPlugin.id

/-- `plugins[entry.id] = plugin`, of an id not yet there. -/
def put (registry : PluginRegistry) (plugin : DeviceMessagingPlugin)
    (fresh : plugin.id ∉ registry.ids) : PluginRegistry where
  plugins := registry.plugins ++ [plugin]
  nodup := by
    rw [List.map_append]
    apply registry.nodup.append (List.nodup_singleton _)
    intro id old new
    rw [List.mem_singleton.mp new] at old
    exact fresh old

end PluginRegistry

section Construction

variable (environment : Environment)

def knownFactories : String :=
  ", ".intercalate (PLUGIN_CATALOG.map Factory.id)

def unknownPluginId (id : PluginId) : String :=
  "Unknown plugin id \"" ++ id ++ "\". Known factories: " ++
    (if knownFactories = "" then "(none)" else knownFactories)

def duplicatePluginId (id : PluginId) : String :=
  "Duplicate plugin id in config: " ++ id

theorem factory_id {factory : Factory} {id : PluginId}
    (h : PLUGIN_CATALOG.find? (fun factory => factory.id = id) = some factory) :
    factory.id = id := by
  have hid := List.find?_some h
  exact of_decide_eq_true hid

/-- One round of the loop over the entries. -/
def addEntry (registry : PluginRegistry) (entry : PluginEntry) : Except String PluginRegistry :=
  match known : PLUGIN_CATALOG.find? fun factory => factory.id = entry.id with
  | none => .error (unknownPluginId entry.id)
  | some factory =>
    if taken : entry.id ∈ registry.ids then .error (duplicatePluginId entry.id)
    else
      match factory.create environment entry with
      | .error message => .error message
      | .ok plugin => .ok (registry.put plugin.1 (by rwa [plugin.2, factory_id known]))

def createPluginRegistry (entries : List PluginEntry) : Except String PluginRegistry :=
  entries.foldlM (addEntry environment) ⟨[], List.nodup_nil⟩

variable {environment} {registry registry' : PluginRegistry} {entry : PluginEntry}
  {entries : List PluginEntry}

/-- An accepted entry is of the catalog, and its plugin is there under its id. -/
theorem addEntry_ids (h : addEntry environment registry entry = .ok registry') :
    entry.id ∈ PLUGIN_CATALOG.map Factory.id ∧ registry'.ids = registry.ids ++ [entry.id] := by
  unfold addEntry at h
  split at h
  next => cases h
  next factory known =>
    split at h
    next => cases h
    next =>
      split at h
      next => cases h
      next plugin hplugin =>
        cases h
        have hid := factory_id known
        constructor
        · rw [← hid]
          exact List.mem_map_of_mem (List.mem_of_find?_eq_some known)
        · unfold PluginRegistry.ids PluginRegistry.put
          rw [List.map_append, List.map_singleton, plugin.2, hid]

theorem addEntries_ids (h : entries.foldlM (addEntry environment) registry = .ok registry') :
    (∀ id ∈ entries.map PluginEntry.id, id ∈ PLUGIN_CATALOG.map Factory.id) ∧
      registry'.ids = registry.ids ++ entries.map PluginEntry.id := by
  induction entries generalizing registry with
  | nil =>
    cases h
    exact ⟨fun _ h => (nomatch h), (List.append_nil _).symm⟩
  | cons entry entries ih =>
    rw [List.foldlM_cons] at h
    cases hentry : addEntry environment registry entry with
    | error message =>
      rw [hentry] at h
      cases h
    | ok next =>
      rw [hentry] at h
      obtain ⟨known, added⟩ := addEntry_ids hentry
      obtain ⟨rest, all⟩ := ih h
      constructor
      · intro id hid
        rcases List.mem_cons.mp hid with rfl | hid
        · exact known
        · exact rest id hid
      · rw [all, added, List.append_assoc]
        rfl

end Construction

section Lookup

variable {environment : Environment} {entries : List PluginEntry} {registry : PluginRegistry}
  {id : PluginId}

theorem PluginRegistry.own_isSome : (registry.own id).isSome = true ↔ id ∈ registry.ids := by
  unfold own ids
  rw [List.find?_isSome]
  simp

/-- A name resolves just when it is configured or inherited. -/
theorem PluginRegistry.get_isSome :
    (registry.get id).isSome = true ↔ id ∈ registry.ids ∨ id ∈ inheritedNames := by
  rw [← own_isSome]
  unfold get
  cases registry.own id with
  | some plugin => simp
  | none => simp

/-- No plugin of the catalog is named as a member of every object. -/
theorem catalog_not_inherited (h : id ∈ PLUGIN_CATALOG.map Factory.id) :
    id ∉ inheritedNames := by
  have apart : ∀ id ∈ PLUGIN_CATALOG.map Factory.id, id ∉ inheritedNames := by decide
  exact apart id h

/-- A message for the id is refused as of no plugin, before any command. -/
def RefusesUnknown (svc : Service) (id : PluginId) : Prop :=
  ∀ create : CreateDeviceMessage, create.pluginId = id →
    enqueue svc create = throw (unknownPlugin id)

/-- The id resolves just when it is configured, and its messages are refused if not. -/
def ResolvesConfigured (svc : Service) (entries : List PluginEntry) (id : PluginId) : Prop :=
  ((svc.registry.get id).isSome = true ↔ id ∈ entries.map PluginEntry.id) ∧
    (id ∉ entries.map PluginEntry.id → RefusesUnknown svc id)

theorem refusesUnknown_of_get {svc : Service} (h : svc.registry.get id = none) :
    RefusesUnknown svc id := by
  intro create hid
  unfold enqueue
  rw [hid, h]

theorem resolvesConfigured_iff {svc : Service}
    (h : createPluginRegistry environment entries = .ok svc.registry) (id : PluginId) :
    ResolvesConfigured svc entries id ↔ id ∉ inheritedNames := by
  obtain ⟨known, hids⟩ := addEntries_ids h
  have hids : svc.registry.ids = entries.map PluginEntry.id := hids
  have hget : (svc.registry.get id).isSome = true ↔
      id ∈ entries.map PluginEntry.id ∨ id ∈ inheritedNames := by
    rw [PluginRegistry.get_isSome, hids]
  constructor
  · intro resolves inherited
    have configured := resolves.1.mp (hget.mpr (.inr inherited))
    exact catalog_not_inherited (known id configured) inherited
  · intro notInherited
    constructor
    · rw [hget]
      exact or_iff_left notInherited
    · intro notConfigured
      have absent : ¬(svc.registry.get id).isSome = true := by
        rw [hget]
        exact not_or.mpr ⟨notConfigured, notInherited⟩
      apply refusesUnknown_of_get
      exact Option.not_isSome_iff_eq_none.mp absent

end Lookup

section Stubs

def bareEnvironment : Environment where
  env _ := none
  clientError := none
  tuningIssues _ := ""

def stubEntries : List PluginEntry := [⟨"stub-push", none⟩, ⟨"stub-pull", none⟩]

def stubRegistry : PluginRegistry where
  plugins := [.delivery (stubPush DEFAULT_PLUGIN_TUNING),
    .delivery (stubPull DEFAULT_PLUGIN_TUNING)]
  nodup := by decide

def stubService : Service :=
  { vendorService with registry := stubRegistry }

theorem stubEntries_resolve :
    createPluginRegistry bareEnvironment stubEntries = .ok stubService.registry ∧
      ResolvesConfigured stubService stubEntries "nxt-sts" := by
  have h : createPluginRegistry bareEnvironment stubEntries = .ok stubService.registry := rfl
  exact ⟨h, (resolvesConfigured_iff h "nxt-sts").mpr (by decide)⟩

def constructorCreate : CreateDeviceMessage :=
  { sampleCreate with
    pluginId := "constructor"
    pluginId_ne := by decide }

/-- Every registry has a member of this name, and no plugin. -/
theorem constructor_resolves :
    createPluginRegistry bareEnvironment stubEntries = .ok stubService.registry ∧
      ¬ResolvesConfigured stubService stubEntries "constructor" ∧
      enqueue stubService constructorCreate = throw notIncluding := by
  refine ⟨rfl, ?_, rfl⟩
  intro resolves
  have configured := resolves.1.mp (by decide)
  revert configured
  decide

end Stubs

end DeviceMessaging
