import FlashStorage.Binding.Session
import FlashStorage.BringUp
import FlashStorage.Chip.Board
import FlashStorage.Chip.Recorded
import FlashStorage.Config.Draft

/-!
# Hosts

A host runs the whole of storage on one board: an adapter over the board's chip,
a registry, a lock hook for each database and, once the adapter is bound, the
sessions that the databases have open.  It works through commands one at a time.
A refused binding takes the adapter with it; the chip stays.
-/

namespace FlashStorage

/-- The chip of a host, behind a recorder. -/
abbrev HostChip := Recorded BoardChip

/-- A device as a board states it. -/
structure DeviceDraft where
  name : String
  base : UInt64
  length : UInt64
  block : UInt32
  granularityBits : UInt8

def DeviceDraft.build (draft : DeviceDraft) : Except ConfigError Device :=
  Device.ofBits draft.name draft.base draft.length draft.block
    draft.granularityBits

inductive HostError where
  | config (error : ConfigError)
  | device (error : DeviceError)
  | registry (error : RegistryError)
  | storage (error : StorageError)
  | binding (error : BindingError)
deriving DecidableEq, Repr

/-- Which table an adapter is bound to. -/
inductive TableChoice where
  | committed
  | empty
deriving DecidableEq, Repr

inductive HostCommand where
  | newAdapter
  | newRegistry
  /-- Script the chip's next answers. -/
  | script (items : List ScriptItem)
  /-- Show the chip's cells. -/
  | dump
  /-- Take a driver out of its chip and wrap it again. -/
  | rewrap
  /-- Show the committed table. -/
  | table
  | init
  | info
  | bringUp (config : Config.Draft) (source : List Region)
  /-- Load or rescan, on the adapter's device unless another one is given. -/
  | load (rescan : Bool) (config : Config.Draft) (source : List Region)
      (device : Option DeviceDraft)
  | bind (config : Config.Draft) (table : TableChoice)
  | unbind
  /-- Open a session and keep it in a slot. -/
  | openSession (database : Database) (slot : Nat)
  | closeSession (slot : Nat)
  /-- An access of the adapter, or of the session in a slot while bound. -/
  | access (slot : Option Nat) (access : Access)
  | timestamp (now : Int64) (buffer : List UInt8)

inductive HostReply where
  | done
  | noAdapter
  | noBinding
  | noSession
  /-- The command has no meaning at this point. -/
  | unsupported
  | closed (present : Bool)
  | data (bytes : List UInt8)
  | cells (runs : List (Nat × List UInt8))
  | table (table : Table)
  | info (device : Name) (erased : UInt8) (chip : ChipInfo)
  | bound (width : TimestampWidth) (table : Table) (config : Config)
  | opened (session : Session)
  | timestamp (reply : Reply (Except TimestampError Nat))

/-- How far a host has come. -/
inductive HostStage where
  /-- The adapter is lost, the chip is not. -/
  | detached (chip : HostChip) (locks : PerDatabase (Tallied SpinLock))
  | ready (adapter : Adapter HostChip) (locks : PerDatabase (Tallied SpinLock))
  | bound (binding : Binding HostChip (Tallied SpinLock))
      (sessions : List (Nat × Session))

structure Host where
  device : Device
  registry : Registry
  stage : HostStage

/-- What a command came to, and the host after it. -/
abbrev HostResult := Outcome HostError HostReply × Host

namespace Host

/-- A host that was just switched on. -/
def start (device : Device) (chip : BoardChip) : Host :=
  ⟨device, Registry.empty,
    .ready (Adapter.mount device (Recorded.ofChip chip))
      ⟨.ofHook .free, .ofHook .free⟩⟩

def chip (host : Host) : HostChip :=
  match host.stage with
  | .detached chip _ => chip
  | .ready adapter _ => adapter.chip
  | .bound binding _ => binding.adapter.chip

/-- Put a changed chip in the place of the present one. -/
def setChip (host : Host) (chip : HostChip) : Host :=
  match host.stage with
  | .detached _ locks => { host with stage := .detached chip locks }
  | .ready adapter locks =>
      { host with stage := .ready { adapter with chip := chip } locks }
  | .bound binding sessions =>
      let adapter := { binding.adapter with chip := chip }
      { host with stage := .bound { binding with adapter := adapter } sessions }

def locks (host : Host) : PerDatabase (Tallied SpinLock) :=
  match host.stage with
  | .detached _ locks => locks
  | .ready _ locks => locks
  | .bound binding _ => binding.locks

def isBound (host : Host) : Bool :=
  match host.stage with
  | .bound _ _ => true
  | _ => false

/-- Whether the adapter is up, if there is one. -/
def isInitialized (host : Host) : Option Bool :=
  match host.stage with
  | .detached _ _ => none
  | .ready adapter _ => some adapter.initialized
  | .bound binding _ => some binding.adapter.initialized

/-- The sessions that are open. -/
def sessions (host : Host) : List (Nat × Session) :=
  match host.stage with
  | .bound _ sessions => sessions
  | _ => []

/-- Close every session and take the adapter out of the binding. -/
def unbind (host : Host) : Host :=
  match host.stage with
  | .bound binding sessions =>
      let binding := sessions.foldl (fun binding (_, session) =>
        binding.closeSession session) binding
      { host with stage := .ready binding.adapter binding.locks }
  | _ => host

/-- The reply to an access: a read shows its buffer. -/
def accessReply (access : Access)
    (reply : Reply (Outcome DeviceError Unit)) : Outcome HostError HostReply :=
  match reply.result, access with
  | .error error, _ => .error (.device error)
  | .halt reason, _ => .halt reason
  | .ok _, .read _ _ => .ok (.data reply.buffer)
  | .ok _, _ => .ok .done

/-- Commands that need no adapter; there is none for the others. -/
def stepDetached (host : Host) (command : HostCommand) : HostResult :=
  match command with
  | .newAdapter =>
      (.ok .done,
        { host with
          stage := .ready (Adapter.mount host.device host.chip) host.locks })
  | .newRegistry => (.ok .done, { host with registry := Registry.empty })
  | .script items => (.ok .done, host.setChip (host.chip.enqueue items))
  | .dump => (.ok (.cells host.chip.chip.memory.runs), host)
  | .rewrap =>
      let chip := host.chip
      (.ok .done, host.setChip { chip with chip := chip.chip.rewrap })
  | .table => (.ok (.table host.registry.table), host)
  | .unbind => (.ok .noBinding, host)
  | _ => (.ok .noAdapter, host)

/-- Bind the adapter.  The configuration is built before the adapter is given
away. -/
def stepBind (host : Host) (adapter : Adapter HostChip)
    (locks : PerDatabase (Tallied SpinLock)) (config : Config.Draft)
    (choice : TableChoice) : HostResult :=
  match config.build with
  | .error error => (.error (.config error), host)
  | .ok config =>
      let table :=
        match choice with
        | .committed => host.registry.table
        | .empty => Table.empty
      match Binding.bind adapter table config locks with
      | .error error =>
          (.error (.binding error),
            { host with stage := .detached adapter.chip locks })
      | .ok binding =>
          (.ok (.bound binding.timestampWidth binding.table binding.config),
            { host with stage := .bound binding [] })

/-- Bring storage up. -/
def stepBringUp (host : Host) (adapter : Adapter HostChip)
    (locks : PerDatabase (Tallied SpinLock)) (config : Config.Draft)
    (source : List Region) : HostResult :=
  let inputs : Outcome HostError (Config × RegionList) := do
    let config ← Outcome.lift .config config.build
    let source ← RegionList.ofList source
    .ok (config, source)
  match inputs with
  | .error error => (.error error, host)
  | .halt reason => (.halt reason, host)
  | .ok (config, source) =>
      let (outcome, adapter, registry) :=
        bringUp config source adapter host.registry
      (outcome.mapError .storage >>= fun table => .ok (.table table),
        { host with registry := registry, stage := .ready adapter locks })

/-- Load the registry, or rescan it. -/
def stepLoad (host : Host) (adapter : Adapter HostChip) (rescan : Bool)
    (config : Config.Draft) (source : List Region)
    (device : Option DeviceDraft) : HostResult :=
  let inputs : Outcome HostError (Config × RegionList × Device) := do
    let config ← Outcome.lift .config config.build
    let source ← RegionList.ofList source
    let device ←
      match device with
      | none => .ok adapter.device
      | some draft => Outcome.lift .config draft.build
    .ok (config, source, device)
  match inputs with
  | .error error => (.error error, host)
  | .halt reason => (.halt reason, host)
  | .ok (config, source, device) =>
      let (outcome, registry) :=
        if rescan then host.registry.rescan source [device] config
        else host.registry.load source [device] config
      (outcome.mapError .registry >>= fun table => .ok (.table table),
        { host with registry := registry })

/-- Commands while there is an adapter that is not bound. -/
def stepReady (host : Host) (adapter : Adapter HostChip)
    (locks : PerDatabase (Tallied SpinLock)) (command : HostCommand) : HostResult :=
  match command with
  | .init =>
      let (result, adapter) := adapter.init
      (Outcome.lift .device result >>= fun _ => .ok .done,
        { host with stage := .ready adapter locks })
  | .info =>
      (.ok (.info adapter.device.name erasedByte adapter.chip.chip.info), host)
  | .access _ access =>
      let (reply, adapter) := adapter.perform access
      (accessReply access reply, { host with stage := .ready adapter locks })
  | .bringUp config source => host.stepBringUp adapter locks config source
  | .load rescan config source device =>
      host.stepLoad adapter rescan config source device
  | .bind config choice => host.stepBind adapter locks config choice
  | .openSession _ _ => (.ok .unsupported, host)
  | .closeSession _ => (.ok .unsupported, host)
  | .timestamp _ _ => (.ok .unsupported, host)
  | command => host.stepDetached command

/-- Open a session and put it into a slot.  The session that was there ends only
after the new one was opened. -/
def stepOpen (host : Host) (binding : Binding HostChip (Tallied SpinLock))
    (sessions : List (Nat × Session)) (database : Database) (slot : Nat) :
    HostResult :=
  match binding.openSession database with
  | (.error error, binding) =>
      (.error (.binding error), { host with stage := .bound binding sessions })
  | (.halt reason, binding) =>
      (.halt reason, { host with stage := .bound binding sessions })
  | (.ok session, binding) =>
      let binding :=
        match sessions.lookup slot with
        | some previous => binding.closeSession previous
        | none => binding
      let others := sessions.filter (fun (other, _) => other != slot)
      (.ok (.opened session),
        { host with stage := .bound binding ((slot, session) :: others) })

/-- Commands while the adapter is bound. -/
def stepBound (host : Host) (binding : Binding HostChip (Tallied SpinLock))
    (sessions : List (Nat × Session)) (command : HostCommand) : HostResult :=
  match command with
  | .openSession database slot => host.stepOpen binding sessions database slot
  | .closeSession slot =>
      match sessions.lookup slot with
      | none => (.ok (.closed false), host)
      | some session =>
          let others := sessions.filter (fun (other, _) => other != slot)
          (.ok (.closed true),
            { host with stage := .bound (binding.closeSession session) others })
  | .access (some slot) access =>
      match sessions.lookup slot with
      | none => (.ok .noSession, host)
      | some session =>
          let (reply, binding) := binding.perform session access
          (accessReply access reply,
            { host with stage := .bound binding sessions })
  | .timestamp now buffer =>
      (.ok (.timestamp (binding.encodeTimestamp now buffer)), host)
  | .script items => (.ok .done, host.setChip (host.chip.enqueue items))
  | .dump => (.ok (.cells host.chip.chip.memory.runs), host)
  | .unbind => (.ok .done, host.unbind)
  | _ => (.ok .unsupported, host)

/-- Work through one command. -/
def step (host : Host) (command : HostCommand) : HostResult :=
  match host.stage with
  | .detached _ _ => host.stepDetached command
  | .ready adapter locks => host.stepReady adapter locks command
  | .bound binding sessions => host.stepBound binding sessions command

end Host

end FlashStorage
