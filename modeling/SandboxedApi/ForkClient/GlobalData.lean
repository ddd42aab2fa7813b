import SandboxedApi.Mounts.Hashable
import SandboxedApi.Machine.EState

namespace SandboxedApi

/-- `NetNsMode`. -/
inductive NetNsMode
  | unspecified
  | perSandboxee
  | none
  | sharedPerForkserver
  deriving DecidableEq, Repr

/-- `CLONE_NEWUSER`. -/
def cloneNewuser : UInt32 := 0x10000000

structure ForkRequest where
  cloneFlags : UInt32
  useLandlock : Bool
  netnsMode : NetNsMode
  useSharedIpcNamespace : Bool
  mountSpecs : MountSpecs

/-- `ForkRequest::InitializationType`, the initializations `SendInitializeRequest` asks for. -/
inductive InitializationType
  | initialNamespaces
  | emptyNetns
  | sharedPidNamespaces
  | sharedMntns
  | emptyIpcns
  deriving DecidableEq, Repr

structure Comms where
  sendsOk : Nat
  fds : List Nat

/-- `SendInitializeRequest` for each initialization: the setup comms, or the status it fails with. -/
abbrev ForkServer := InitializationType → Except Status Comms

/-- `Comms::SendFD` and `Comms::SendProtoBuf`, failing with the caller's message. -/
def Comms.send (comms : Comms) (message : String) : Except Status Comms :=
  match comms.sendsOk with
  | 0 => .error ⟨.internal, message⟩
  | n + 1 => .ok { comms with sendsOk := n }

/-- `Comms::RecvFD`, failing with the caller's message. -/
def Comms.recvFD (comms : Comms) (message : String) : Except Status (Nat × Comms) :=
  match comms.fds with
  | [] => .error ⟨.internal, message⟩
  | fd :: fds => .ok (fd, { comms with fds := fds })

structure GlobalData where
  initialUsernsFd : Int
  initialMntnsFd : Int
  sharedNetnsFd : Int
  sharedIpcnsFd : Int
  sharedPidnsMntnsFd : Int
  sharedPidnsFd : Int
  sharedMountNamespaces : List (MountSpecs × Int)

/-- `GlobalData()`: every fd `-1`, no shared mount namespace. -/
def GlobalData.init : GlobalData := ⟨-1, -1, -1, -1, -1, -1, []⟩

structure Options where
  initialUsernsFd : Int := -1
  sharedPidnsFd : Int := -1
  mntnsFd : Int := -1
  sharedNetnsFd : Int := -1
  sharedIpcnsFd : Int := -1

inductive SetupError
  | status (s : Status)
  | checkFailed (message : String)
  deriving DecidableEq, Repr

structure SetupState where
  data : GlobalData
  options : Options

abbrev Setup := EStateM SetupError SetupState

/-- `ABSL_RETURN_IF_ERROR` and `ABSL_ASSIGN_OR_RETURN` on a status. -/
def Setup.ofStatus {α : Type} : Except Status α → Setup α
  | .ok a => pure a
  | .error e => throw (.status e)

/-- `SAPI_RAW_CHECK(condition, message)`. -/
def Setup.check (condition : Bool) (message : String) : Setup Unit :=
  if condition then pure () else throw (.checkFailed message)

section

variable (server : ForkServer)

/-- `SetupInitialNamespacesLocked`. -/
def setupInitialNamespacesLocked : Setup Unit := do
  let comms ← Setup.ofStatus (server .initialNamespaces)
  let (usernsFd, comms) ← Setup.ofStatus (comms.recvFD "Receiving initial user namespace fd failed")
  let (mntnsFd, _) ← Setup.ofStatus (comms.recvFD "Receiving initial mount namespace fd failed")
  modify fun st => { st with data.initialUsernsFd := usernsFd, data.initialMntnsFd := mntnsFd }

/-- `SetupSharedPidNamespacesLocked`. -/
def setupSharedPidNamespacesLocked : Setup Unit := do
  if (← get).data.initialUsernsFd = -1 then setupInitialNamespacesLocked server
  let comms ← Setup.ofStatus (server .sharedPidNamespaces)
  let comms ← Setup.ofStatus
    (comms.send "Sending initial user namespace fd for shared pidns failed")
  let (mntnsFd, comms) ← Setup.ofStatus (comms.recvFD "Receiving shared pidns mount fd failed")
  let (pidnsFd, _) ← Setup.ofStatus (comms.recvFD "Receiving shared pidns fd failed")
  modify fun st => { st with data.sharedPidnsMntnsFd := mntnsFd, data.sharedPidnsFd := pidnsFd }

/-- `SetupSharedNetnsNamespacesLocked`. -/
def setupSharedNetnsNamespacesLocked : Setup Unit := do
  if (← get).data.initialUsernsFd = -1 then setupInitialNamespacesLocked server
  let comms ← Setup.ofStatus (server .emptyNetns)
  let comms ← Setup.ofStatus (comms.send "Sending user namespace fd for empty netns failed")
  let (netnsFd, _) ← Setup.ofStatus (comms.recvFD "Receiving empty netns fd failed")
  modify fun st => { st with data.sharedNetnsFd := netnsFd }

/-- `SetupSharedIpcNamespaceLocked`. -/
def setupSharedIpcNamespaceLocked : Setup Unit := do
  let comms ← Setup.ofStatus (server .emptyIpcns)
  let comms ← Setup.ofStatus (comms.send "Sending user namespace fd for empty ipcns failed")
  let (ipcnsFd, _) ← Setup.ofStatus (comms.recvFD "Receiving empty ipcns fd failed")
  modify fun st => { st with data.sharedIpcnsFd := ipcnsFd }

/-- `SetupSharedMountNamespaceLocked`: the fd of the new namespace. -/
def setupSharedMountNamespaceLocked : Setup Int := do
  let comms ← Setup.ofStatus (server .sharedMntns)
  let comms ← Setup.ofStatus
    (comms.send "Sending initial user namespace fd for shared mntns failed")
  let comms ← Setup.ofStatus
    (comms.send "Sending shared pid namespace fd for shared mntns failed")
  let comms ← Setup.ofStatus
    (comms.send "Sending initial mount namespace fd for shared mntns failed")
  let comms ← Setup.ofStatus
    (comms.send "Sending shared network namespace fd for shared mntns failed")
  let comms ← Setup.ofStatus (comms.send "Sending mount specs for shared mntns failed")
  let (mntnsFd, _) ← Setup.ofStatus (comms.recvFD "Receiving shared mntns fd failed")
  return mntnsFd

def GlobalData.findSharedMountNamespace (data : GlobalData) (specs : MountSpecs) :
    Option (MountSpecs × Int) :=
  data.sharedMountNamespaces.find? fun e => e.1.equals specs

def useSharedMountNamespace (specs : MountSpecs) : Setup Unit := do
  modify fun st => { st with options.sharedPidnsFd := st.data.sharedPidnsFd }
  match (← get).data.findSharedMountNamespace specs with
  | some (_, fd) => modify fun st => { st with options.mntnsFd := fd }
  | none =>
    modify fun st => { st with
      data.sharedMountNamespaces := st.data.sharedMountNamespaces ++ [(specs, -1)] }
    let fd ← setupSharedMountNamespaceLocked server
    modify fun st => { st with
      data.sharedMountNamespaces := st.data.sharedMountNamespaces.dropLast ++ [(specs, fd)],
      options.mntnsFd := fd }

def setupPidnsOptions (request : ForkRequest) : Setup Unit := do
  let useSharedPidns := request.useLandlock || request.mountSpecs.useSharedMountNamespace
  if useSharedPidns then
    if (← get).data.sharedPidnsFd = -1 then setupSharedPidNamespacesLocked server
    Setup.check ((← get).data.sharedPidnsMntnsFd != -1) "Shared pidns mntns fd not initialized"
    Setup.check ((← get).data.sharedPidnsFd != -1) "Shared pidns fd not initialized"

def setupMntnsOptions (request : ForkRequest) : Setup Unit :=
  if request.useLandlock then
    modify fun st => { st with
      options.initialUsernsFd := st.data.initialUsernsFd,
      options.mntnsFd := st.data.sharedPidnsMntnsFd,
      options.sharedPidnsFd := st.data.sharedPidnsFd }
  else do
    Setup.check ((← get).data.initialMntnsFd != -1) "Initial mntns fd not initialized"
    modify fun st => { st with
      options.initialUsernsFd := st.data.initialUsernsFd,
      options.mntnsFd := st.data.initialMntnsFd }

def setupNetnsOptions (request : ForkRequest) : Setup Unit :=
  if request.netnsMode = .sharedPerForkserver then do
    if (← get).data.sharedNetnsFd = -1 then setupSharedNetnsNamespacesLocked server
    modify fun st => { st with options.sharedNetnsFd := st.data.sharedNetnsFd }
  else pure ()

def setupIpcnsOptions (request : ForkRequest) : Setup Unit :=
  if request.useSharedIpcNamespace then do
    if (← get).data.sharedIpcnsFd = -1 then setupSharedIpcNamespaceLocked server
    modify fun st => { st with options.sharedIpcnsFd := st.data.sharedIpcnsFd }
  else pure ()

def setupNamespaceOptions (request : ForkRequest) : Setup Unit := do
  if (← get).data.initialUsernsFd = -1 then setupInitialNamespacesLocked server
  setupPidnsOptions server request
  setupMntnsOptions request
  setupNetnsOptions server request
  setupIpcnsOptions server request

/-- `GlobalForkClient::GlobalData::SetupOptions`: nothing to do without `CLONE_NEWUSER`. -/
def setupOptions (request : ForkRequest) : Setup Unit :=
  if request.cloneFlags &&& cloneNewuser = 0 then pure ()
  else do
    setupNamespaceOptions server request
    if request.mountSpecs.useSharedMountNamespace then
      useSharedMountNamespace server request.mountSpecs

end

def GlobalData.setupOptions (data : GlobalData) (server : ForkServer) (request : ForkRequest) :
    SetupState × Except SetupError Unit :=
  match (SandboxedApi.setupOptions server request).run ⟨data, {}⟩ with
  | .ok () st => (st, .ok ())
  | .error e st => (st, .error e)

end SandboxedApi

namespace SandboxedApi

open Machine

/-- `shared_mount_namespaces_`. -/
def SetupState.cache (st : SetupState) : List (MountSpecs × Int) := st.data.sharedMountNamespaces

theorem keeps_ofStatus {α β : Type} {f : SetupState → β} (r : Except Status α) :
    Keeps f (Setup.ofStatus r) := by
  cases r with
  | ok a => exact keeps_pure a
  | error e => exact keeps_throw _

theorem keeps_check {β : Type} {f : SetupState → β} (condition : Bool) (message : String) :
    Keeps f (Setup.check condition message) :=
  Keeps.ite (keeps_pure ()) (keeps_throw _)

section

variable (server : ForkServer)

theorem setupInitialNamespacesLocked_keeps : Keeps SetupState.cache (setupInitialNamespacesLocked server) :=
  (keeps_ofStatus _).bind fun _ => (keeps_ofStatus _).bind fun ⟨_, _⟩ =>
    (keeps_ofStatus _).bind fun ⟨_, _⟩ => keeps_modify fun _ => rfl

theorem setupSharedPidNamespacesLocked_keeps :
    Keeps SetupState.cache (setupSharedPidNamespacesLocked server) :=
  (setupInitialNamespacesLocked_keeps server).getIte fun _ => (keeps_ofStatus _).bind fun _ =>
    (keeps_ofStatus _).bind fun _ => (keeps_ofStatus _).bind fun ⟨_, _⟩ =>
      (keeps_ofStatus _).bind fun ⟨_, _⟩ => keeps_modify fun _ => rfl

theorem setupSharedNetnsNamespacesLocked_keeps :
    Keeps SetupState.cache (setupSharedNetnsNamespacesLocked server) :=
  (setupInitialNamespacesLocked_keeps server).getIte fun _ => (keeps_ofStatus _).bind fun _ =>
    (keeps_ofStatus _).bind fun _ => (keeps_ofStatus _).bind fun ⟨_, _⟩ =>
      keeps_modify fun _ => rfl

theorem setupSharedIpcNamespaceLocked_keeps :
    Keeps SetupState.cache (setupSharedIpcNamespaceLocked server) :=
  (keeps_ofStatus _).bind fun _ => (keeps_ofStatus _).bind fun _ =>
    (keeps_ofStatus _).bind fun ⟨_, _⟩ => keeps_modify fun _ => rfl

theorem setupNamespaceOptions_keeps (request : ForkRequest) :
    Keeps SetupState.cache (setupNamespaceOptions server request) := by
  have hpid : Keeps SetupState.cache (setupPidnsOptions server request) :=
    Keeps.ite ((setupSharedPidNamespacesLocked_keeps server).getIte fun _ =>
      keeps_get.bind fun _ => (keeps_check _ _).bind fun _ =>
        keeps_get.bind fun _ => keeps_check _ _) (keeps_pure ())
  have hmnt : Keeps SetupState.cache (setupMntnsOptions request) :=
    Keeps.ite (keeps_modify fun _ => rfl)
      (keeps_get.bind fun _ => (keeps_check _ _).bind fun _ => keeps_modify fun _ => rfl)
  have hnet : Keeps SetupState.cache (setupNetnsOptions server request) :=
    Keeps.ite ((setupSharedNetnsNamespacesLocked_keeps server).getIte fun _ =>
      keeps_modify fun _ => rfl) (keeps_pure ())
  have hipc : Keeps SetupState.cache (setupIpcnsOptions server request) :=
    Keeps.ite ((setupSharedIpcNamespaceLocked_keeps server).getIte fun _ =>
      keeps_modify fun _ => rfl) (keeps_pure ())
  exact (setupInitialNamespacesLocked_keeps server).getIte fun _ =>
    hpid.bind fun _ => hmnt.bind fun _ => hnet.bind fun _ => hipc

theorem setupSharedMountNamespaceLocked_keeps : Keeps id (setupSharedMountNamespaceLocked server) :=
  (keeps_ofStatus _).bind fun _ => (keeps_ofStatus _).bind fun _ => (keeps_ofStatus _).bind fun _ =>
    (keeps_ofStatus _).bind fun _ => (keeps_ofStatus _).bind fun _ =>
      (keeps_ofStatus _).bind fun _ => (keeps_ofStatus _).bind fun ⟨_, _⟩ => keeps_pure _

variable {specs : MountSpecs} {st : SetupState}

theorem useSharedMountNamespace_of_find {key : MountSpecs} {fd : Int}
    (h : st.data.findSharedMountNamespace specs = some (key, fd)) :
    (useSharedMountNamespace server specs).run st =
      .ok () { st with options.sharedPidnsFd := st.data.sharedPidnsFd, options.mntnsFd := fd } := by
  unfold useSharedMountNamespace
  simp only [run_bind, run_modify, run_get]
  rw [h]
  rfl

theorem useSharedMountNamespace_cache_of_find_none
    (h : st.data.findSharedMountNamespace specs = none) :
    (∃ fd st', (useSharedMountNamespace server specs).run st = .ok () st' ∧
      st'.cache = st.cache ++ [(specs, fd)] ∧ st'.options.mntnsFd = fd) ∨
    (∃ e st', (useSharedMountNamespace server specs).run st = .error e st' ∧
      st'.cache = st.cache ++ [(specs, -1)]) := by
  unfold useSharedMountNamespace
  simp only [run_bind, run_modify, run_get]
  rw [h]
  simp only [run_bind, run_modify]
  split
  next fd st' hrun =>
    have hst := (setupSharedMountNamespaceLocked_keeps server).of_run_ok hrun
    subst hst
    refine .inl ⟨fd, _, rfl, ?_, rfl⟩
    simp [SetupState.cache]
  next e st' hrun =>
    have hst := (setupSharedMountNamespaceLocked_keeps server).of_run_error hrun
    subst hst
    exact .inr ⟨e, _, rfl, rfl⟩

end

section

variable {server : ForkServer} {data : GlobalData} {request : ForkRequest}

theorem GlobalData.setupOptions_of_find {key : MountSpecs} {fd : Int}
    (hnew : request.cloneFlags &&& cloneNewuser ≠ 0)
    (hshared : request.mountSpecs.useSharedMountNamespace = true)
    (hfind : data.findSharedMountNamespace request.mountSpecs = some (key, fd)) :
    (data.setupOptions server request).1.cache = data.sharedMountNamespaces ∧
    ((data.setupOptions server request).2 = .ok () →
      (data.setupOptions server request).1.options.mntnsFd = fd) := by
  unfold GlobalData.setupOptions
  rw [SandboxedApi.setupOptions, if_neg hnew, run_bind, if_pos hshared]
  cases hpre : (setupNamespaceOptions server request).run ⟨data, {}⟩ with
  | ok _ st =>
    have hcache : st.data.sharedMountNamespaces = data.sharedMountNamespaces :=
      (setupNamespaceOptions_keeps server request).of_run_ok hpre
    have hfind' : st.data.findSharedMountNamespace request.mountSpecs = some (key, fd) := by
      rw [GlobalData.findSharedMountNamespace, hcache]
      exact hfind
    dsimp only
    rw [useSharedMountNamespace_of_find server hfind']
    exact ⟨hcache, fun _ => rfl⟩
  | error e st =>
    exact ⟨(setupNamespaceOptions_keeps server request).of_run_error hpre, nofun⟩
theorem GlobalData.setupOptions_of_find_none
    (hnew : request.cloneFlags &&& cloneNewuser ≠ 0)
    (hshared : request.mountSpecs.useSharedMountNamespace = true)
    (hmiss : data.findSharedMountNamespace request.mountSpecs = none) :
    ((data.setupOptions server request).2 ≠ .ok () ∧
      (data.setupOptions server request).1.cache = data.sharedMountNamespaces) ∨
    (∃ fd, (data.setupOptions server request).2 = .ok () ∧
      (data.setupOptions server request).1.cache =
        data.sharedMountNamespaces ++ [(request.mountSpecs, fd)] ∧
      (data.setupOptions server request).1.options.mntnsFd = fd) ∨
    ((data.setupOptions server request).2 ≠ .ok () ∧
      (data.setupOptions server request).1.cache =
        data.sharedMountNamespaces ++ [(request.mountSpecs, -1)]) := by
  unfold GlobalData.setupOptions
  rw [SandboxedApi.setupOptions, if_neg hnew, run_bind, if_pos hshared]
  cases hpre : (setupNamespaceOptions server request).run ⟨data, {}⟩ with
  | ok _ st =>
    have hcache : st.data.sharedMountNamespaces = data.sharedMountNamespaces :=
      (setupNamespaceOptions_keeps server request).of_run_ok hpre
    have hmiss' : st.data.findSharedMountNamespace request.mountSpecs = none := by
      rw [GlobalData.findSharedMountNamespace, hcache]
      exact hmiss
    dsimp only
    obtain ⟨fd, st', hrun, hc, hm⟩ | ⟨e, st', hrun, hc⟩ :=
      useSharedMountNamespace_cache_of_find_none server hmiss'
    · rw [hrun]
      exact .inr (.inl ⟨fd, rfl, hc.trans (by rw [SetupState.cache, hcache]), hm⟩)
    · rw [hrun]
      exact .inr (.inr ⟨nofun, hc.trans (by rw [SetupState.cache, hcache])⟩)
  | error e st =>
    exact .inl ⟨nofun, (setupNamespaceOptions_keeps server request).of_run_error hpre⟩

theorem GlobalData.findSharedMountNamespace_append {specs specs' : MountSpecs} {fd : Int}
    (hkeys : ∀ e ∈ data.sharedMountNamespaces, e.1.ProtoOk) (hp : specs.ProtoOk)
    (hp' : specs'.ProtoOk) (hequal : specs.equals specs' = true)
    (hmiss : data.findSharedMountNamespace specs = none) :
    { data with sharedMountNamespaces := data.sharedMountNamespaces ++ [(specs, fd)] }.findSharedMountNamespace
      specs' = some (specs, fd) := by
  have hold : data.findSharedMountNamespace specs' = none := by
    rw [GlobalData.findSharedMountNamespace, List.find?_eq_none] at hmiss ⊢
    intro e he hequal'
    have hback : specs'.equals specs = true := by rw [MountSpecs.equals_comm hp' hp]; exact hequal
    exact hmiss e he (MountSpecs.equals_trans (hkeys e he) hp' hp hequal' hback)
  rw [GlobalData.findSharedMountNamespace] at hold ⊢
  simp [List.find?_append, hold, hequal]

theorem GlobalData.setupOptions_after_failed_setup {specs : MountSpecs}
    (hkeys : ∀ e ∈ data.sharedMountNamespaces, e.1.ProtoOk) (hp : specs.ProtoOk)
    (hp' : request.mountSpecs.ProtoOk) (hequal : specs.equals request.mountSpecs = true)
    (hmiss : data.findSharedMountNamespace specs = none)
    (hnew : request.cloneFlags &&& cloneNewuser ≠ 0)
    (hshared : request.mountSpecs.useSharedMountNamespace = true)
    (hok : ({ data with sharedMountNamespaces := data.sharedMountNamespaces ++ [(specs, -1)] }.setupOptions
      server request).2 = .ok ()) :
    ({ data with sharedMountNamespaces := data.sharedMountNamespaces ++ [(specs, -1)] }.setupOptions
      server request).1.options.mntnsFd = -1 :=
  (GlobalData.setupOptions_of_find hnew hshared
    (GlobalData.findSharedMountNamespace_append hkeys hp hp' hequal hmiss)).2 hok

end

/-- A request for a shared mount namespace whose setup fails on the fork server's reply leaves
`shared_mount_namespaces_` holding its specs with `-1`; the next request with the same specs
returns OK with `mntns_fd` `-1`, without asking the fork server for a namespace. -/
theorem setupOptions_failed_setup_cached :
    (GlobalData.init.setupOptions
        (fun t => if t = .sharedMntns then .ok ⟨5, []⟩ else .ok ⟨1, [3, 4]⟩)
        ⟨cloneNewuser, false, .perSandboxee, false,
          ⟨⟨[], some (.rootNode false), 0, false⟩, false, false, true⟩⟩).2 =
      .error (.status ⟨.internal, "Receiving shared mntns fd failed"⟩) ∧
    ((GlobalData.init.setupOptions
        (fun t => if t = .sharedMntns then .ok ⟨5, []⟩ else .ok ⟨1, [3, 4]⟩)
        ⟨cloneNewuser, false, .perSandboxee, false,
          ⟨⟨[], some (.rootNode false), 0, false⟩, false, false, true⟩⟩).1.data.sharedMountNamespaces.map
        Prod.snd) = [-1] ∧
    ((GlobalData.init.setupOptions
        (fun t => if t = .sharedMntns then .ok ⟨5, []⟩ else .ok ⟨1, [3, 4]⟩)
        ⟨cloneNewuser, false, .perSandboxee, false,
          ⟨⟨[], some (.rootNode false), 0, false⟩, false, false, true⟩⟩).1.data.setupOptions
        (fun _ => .ok ⟨5, [7]⟩)
        ⟨cloneNewuser, false, .perSandboxee, false,
          ⟨⟨[], some (.rootNode false), 0, false⟩, false, false, true⟩⟩).2 = .ok () ∧
    ((GlobalData.init.setupOptions
        (fun t => if t = .sharedMntns then .ok ⟨5, []⟩ else .ok ⟨1, [3, 4]⟩)
        ⟨cloneNewuser, false, .perSandboxee, false,
          ⟨⟨[], some (.rootNode false), 0, false⟩, false, false, true⟩⟩).1.data.setupOptions
        (fun _ => .ok ⟨5, [7]⟩)
        ⟨cloneNewuser, false, .perSandboxee, false,
          ⟨⟨[], some (.rootNode false), 0, false⟩, false, false, true⟩⟩).1.options.mntnsFd = -1 := by
  decide +kernel

end SandboxedApi
