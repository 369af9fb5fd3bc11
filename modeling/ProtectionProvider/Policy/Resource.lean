import ProtectionProvider.Diagnostic

/-! # The policy resource

The life of a policy that is managed: its plans, and the calls that carry them out. The attributes
that the server assigns are those whose role says so; the others are the user's.
-/

namespace ProtectionProvider.Policy

abbrev Model : Type := protectionPolicy.Model

abbrev State : Type := protectionPolicy.State

/-- What is stored beside a state. -/
abbrev Private : Type := Value Unit

namespace Resource

def schema : Schema where
  description := "Protection policy: backup schedules, retentions and copy targets"
  table := protectionPolicy

def isRevision : Role → Bool
  | .revision => true
  | _ => false

def getId (s : State) : Value String := Fields.State.get Policy.id s

def identify (given : Value String) (s : State) : State :=
  Fields.State.set Policy.id ((getId s).orIfNull given) s

/-- Takes the assigned attributes of the first state and the user's of the second. -/
def assign (assigned user : State) : State := Fields.State.select Role.assigned assigned user

def SameUser (s t : State) : Prop := Fields.State.Agree (fun r => !r.assigned) s t

instance (s t : State) : Decidable (SameUser s t) :=
  inferInstanceAs (Decidable (Fields.State.Agree _ s t))

/-! ## Validation -/

def settingsErrors : Value backupPolicy.State → List Diagnostic
  | .value s =>
    match Fields.State.get regular s with
    | .null => [.noRegularBackup]
    | _ => []
  | .null => [.nullAttribute "backup_policy"]
  | .unknown => []

def validate (config : State) : Outcome Unit :=
  .check (Diagnostic.missing "name" (Fields.State.get name config) ++
    settingsErrors (Fields.State.get settings config))

/-! ## Plans -/

def planCreate (proposed : State) : State × Private :=
  (assign (.unknown protectionPolicy) proposed, .null)

structure Plan where
  state : State
  hidden : Private
  /-- The paths of the attributes whose change asks for a new policy. -/
  replaced : List (List String) := []

/-- Keeps what the server assigned, but for the revision if the user changes anything. No change
asks for a new policy. -/
def planUpdate (prior proposed : State) (hidden : Private) : Plan :=
  let kept := assign prior proposed
  if SameUser kept prior then { state := kept, hidden }
  else { state := Fields.State.select isRevision (.unknown protectionPolicy) kept, hidden }

def planDestroy (hidden : Private) : Private := hidden

/-! ## Calls -/

/-- A policy that is gone is dropped, and after any other failure the state stays. -/
def read (slot : Option Client) (s : State) (hidden : Private) (answer : Http.Answer) :
    Outcome (State × Private) :=
  match getId s with
  | .value (id : String) =>
    .call slot (.getPolicy id) answer fun
      | .ok m => .ok (identify (.value id) (protectionPolicy.flatten m), hidden)
      | .error e =>
        if e.isNotFound then { result := none }
        else
          { result := some (s, hidden)
            errors := [.callFailed (Call.getPolicy id).operation e] }
  | _ => .fail .noPolicyId

def create (slot : Option Client) (planned : State) (hidden : Private) (answer : Http.Answer) :
    Outcome (State × Private) :=
  let call := Call.createPolicy (protectionPolicy.expand planned)
  .call slot call answer fun
    | .ok (m : Model) =>
      match Fields.Model.get Policy.id m with
      | some _ => .ok (assign (protectionPolicy.flatten m) planned, hidden)
      | none => .fail .unnamedPolicy
    | .error e => .fail (.callFailed call.operation e)

def updateBody (prior planned : State) : Model :=
  let known := protectionPolicy.expand prior
  Fields.Model.set Policy.id (Fields.Model.get Policy.id known)
    (Fields.Model.select isRevision known (protectionPolicy.expand planned))

def update (slot : Option Client) (prior planned : State) (hidden : Private)
    (answer : Http.Answer) : Outcome (State × Private) :=
  match getId prior with
  | .value (id : String) =>
    let call := Call.updatePolicy id (updateBody prior planned)
    .call slot call answer fun
      | .ok (m : Model) =>
        .ok (identify (.value id) (assign (protectionPolicy.flatten m) planned), hidden)
      | .error e => .fail (.callFailed call.operation e)
  | _ => .fail .noPolicyId

/-- A policy without an identifier was never created, and one that is not found is gone. -/
def destroy (slot : Option Client) (prior : State) (answer : Http.Answer) : Outcome Unit :=
  match getId prior with
  | .value (id : String) =>
    .call slot (.deletePolicy id) answer fun
      | .ok _ => .ok ()
      | .error e =>
        if e.isNotFound then .ok () else .fail (.callFailed (Call.deletePolicy id).operation e)
  | _ => .ok ()

def importId (slot : Option Client) (id : String) (answer : Http.Answer) :
    Outcome (State × Private) :=
  if id = "" then .fail .emptyPolicyId
  else .call slot (.getPolicy id) answer fun
    | .ok m => .ok (identify (.value id) (protectionPolicy.flatten m), .null)
    | .error e => .fail (.callFailed (Call.getPolicy id).operation e)

end Resource

end ProtectionProvider.Policy
