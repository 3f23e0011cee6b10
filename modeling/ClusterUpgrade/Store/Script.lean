import ClusterUpgrade.Store.Operation

/-!
# Scripts

A script is a list of steps on a store. A step is a single request, or a transaction with a script
of its own. A request that fails ends its script unless the step catches the failure. A transaction
that ends early, or that is abandoned at its end, leaves the store as it was; so does one that finds
a store that cannot be copied, before its first step. The failure of a transaction stays its own,
and the script around it goes on.
-/

namespace ClusterUpgrade

/-! ## Requests -/

/-- A single operation on a store. -/
inductive Request where
  | defaults (stack : StackId) (service : String)
  | live (service : String)
  | current (type : String)
  | applyLatest (stack : StackId) (service : String)
  | create (stack : StackId) (service : String) (configs : PropertiesByType)
      (actor comment : String)
  | created
  | placeholder (token : String)
  | setServiceRepository (service : String) (version : RepositoryVersion)
  | components (service : String)
  | setComponentRepository (service component : String) (version : RepositoryVersion)
  | setHostState (service component host : String) (state : UpgradeState)
  | setHostVersion (service component host version : String)
  | snapshot

/-- What a store answers to a request. -/
inductive Answer where
  | done
  | defaults (defaults : DefaultsByType)
  | live (configs : List LiveConfig)
  | current (config : Option LiveConfig)
  | created (revisions : List Revision)
  | placeholder (value : Option String)
  | components (components : List ComponentState)
  | snapshot (store : Store)

namespace Request

def reads {α : Type} (answer : α → Answer) (f : Store → Except StoreError α) :
    Operation StoreError Answer := Operation.reading fun s => (f s).map answer

def writes (f : Store → Except StoreError Store) : Operation StoreError Answer := do
  Operation.writing f
  return .done

/-- The operation of a request. -/
def operation : Request → Operation StoreError Answer
  | defaults stack service => reads .defaults (·.defaultsOf stack service)
  | live service => Operation.look fun s => .live (s.liveConfig service)
  | current type => Operation.look fun s => .current (s.currentConfig? type)
  | applyLatest stack service => writes (·.applyLatest stack service)
  | create stack service configs actor comment =>
    writes fun s => .ok (s.createRevisions stack service configs actor comment)
  | created => Operation.look fun s => .created s.createdRevisions
  | placeholder token => Operation.look fun s => .placeholder (s.placeholder? token)
  | setServiceRepository service version => writes (·.setServiceRepository service version)
  | components service => reads .components (·.componentsOf service)
  | setComponentRepository service component version =>
    writes (·.setComponentRepository service component version)
  | setHostState service component host state =>
    writes (·.setHostState service component host state)
  | setHostVersion service component host version =>
    writes (·.setHostVersion service component host version)
  | snapshot => Operation.look .snapshot

end Request

/-! ## Scripts -/

/-- Why a script ends early. -/
inductive ScriptError where
  /-- The store has refused a request. -/
  | refused (cause : StoreError)
  /-- The script has been given up at its end. -/
  | abandoned (reason : String)

def ScriptError.message : ScriptError → String
  | refused cause => cause.message
  | abandoned reason => reason

/-- A step of a script. -/
inductive Step where
  /-- A request; the script goes on after a failure if the step catches it. -/
  | request (request : Request) (catches : Bool)
  /-- A transaction, which may be abandoned at its end. -/
  | transaction (steps : List Step) (abandoned : Option String)

/-- What comes of a step, and the store after it. -/
inductive Reply where
  | answer (answer : Answer) (after : Store)
  | caught (error : ScriptError) (after : Store)
  /-- A transaction has a store of its own, which takes the place of the one before it unless the
  transaction fails. -/
  | transaction (failure : Option ScriptError) (replies : List Reply) (own after : Store)

def Reply.after : Reply → Store
  | answer _ after | caught _ after | transaction _ _ _ after => after

/-- Whether another store has taken the place of the one before the step. -/
def Reply.replaces : Reply → Bool
  | transaction failure _ _ _ => failure.isNone
  | _ => false

/-- What comes of a script. -/
structure ScriptRun where
  store : Store
  replies : List Reply
  /-- Why the script has ended early. -/
  failure : Option ScriptError

/-- The run of a script on a copy of a store; there is none of a store that cannot be copied. -/
def ScriptRun.onCopy (before : Store) (run : ScriptRun) : ScriptRun :=
  match before.uncopyable with
  | some text => ⟨before, [], some (.refused (.notCopyable text))⟩
  | none => run

/-- The reply of a transaction: one that fails, or is abandoned, changes nothing. -/
def ScriptRun.transaction (before : Store) (run : ScriptRun) (abandoned : Option String) : Reply :=
  let failure := run.failure <|> abandoned.map .abandoned
  .transaction failure run.replies run.store (if failure.isNone then run.store else before)

/-- The run of a request, and the rest of the script. -/
def ScriptRun.request (o : Outcome StoreError Answer) (catches : Bool)
    (rest : Store → ScriptRun) : ScriptRun :=
  match o.result with
  | .ok a =>
    let r := rest o.store
    { r with replies := .answer a o.store :: r.replies }
  | .error e =>
    if catches then
      let r := rest o.store
      { r with replies := .caught (.refused e) o.store :: r.replies }
    else ⟨o.store, [], some (.refused e)⟩

/-- Runs a script. -/
def runScript : List Step → Store → ScriptRun
  | [], s => ⟨s, [], none⟩
  | .request request catches :: rest, s =>
    .request (request.operation.run s) catches (runScript rest)
  | .transaction steps abandoned :: rest, s =>
    let reply := ((runScript steps s).onCopy s).transaction s abandoned
    let r := runScript rest reply.after
    { r with replies := reply :: r.replies }

end ClusterUpgrade
