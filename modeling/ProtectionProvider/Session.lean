import ProtectionProvider.Provider

/-! # Sessions

Operations in a row that share the slot of one provider. Only a client that is built takes the place of
the one in it. What is seen of a session is what its operations return, with all requests that go out for
them, those that redirections lead to among them.
-/

namespace ProtectionProvider

inductive Step where
  /-- Builds a client from settings of its own, and puts it in the slot as a configuration does. -/
  | connect (settings : Settings)
  | validateProvider (config : Provider.Config)
  | configureProvider (config : Provider.Config)
  | validate (d : DataSource) (config : d.State)
  | read (d : DataSource) (config : d.State)
  | validatePolicy (config : Policy.State)
  | readPolicy (s : Policy.State) (hidden : Policy.Private)
  | planCreate (proposed : Policy.State)
  | planUpdate (prior proposed : Policy.State) (hidden : Policy.Private)
  | planDestroy (hidden : Policy.Private)
  | create (planned : Policy.State) (hidden : Policy.Private)
  | update (prior planned : Policy.State) (hidden : Policy.Private)
  | destroy (prior : Policy.State)
  | importPolicy (id : String)
  | call (call : Call)

inductive Step.Result where
  | connected (endpoint : Except ClientError String)
  | checked (o : Outcome Unit)
  | listed (d : DataSource) (o : Outcome d.State)
  | policy (o : Outcome (Policy.State × Policy.Private))
  | planned (plan : Policy.Resource.Plan)
  | hidden (hidden : Policy.Private)
  | called (call : Call) (result : Option (Except ApiError call.reply.Model))
      (requests : List Http.Request)

namespace Step.Result

def requests : Result → List Http.Request
  | .connected _ | .planned _ | .hidden _ => []
  | .checked o => o.requests
  | .listed _ o => o.requests
  | .policy o => o.requests
  | .called _ _ requests => requests

def onRequests (f : List Http.Request → List Http.Request) : Result → Result
  | .checked o => .checked (o.onRequests f)
  | .listed d o => .listed d (o.onRequests f)
  | .policy o => .policy (o.onRequests f)
  | .called c r requests => .called c r (f requests)
  | .connected endpoint => .connected endpoint
  | .planned plan => .planned plan
  | .hidden p => .hidden p

end Step.Result

namespace Step

def slot (slot : Option Client) : Step → Option Client
  | .connect settings =>
    match Client.build settings with
    | .ok c => some c
    | .error _ => slot
  | .configureProvider config => (Provider.configure slot config).1
  | _ => slot

def result (slot : Option Client) (now : String) (answer : Http.Answer) : Step → Result
  | .connect settings => .connected ((Client.build settings).map Client.endpoint)
  | .validateProvider c => .checked (Provider.validate c)
  | .configureProvider c => .checked (Provider.configure slot c).2
  | .validate d c => .checked (d.validate c)
  | .read d c => .listed d (d.read slot c answer now)
  | .validatePolicy c => .checked (Policy.Resource.validate c)
  | .readPolicy s p => .policy (Policy.Resource.read slot s p answer)
  | .planCreate s => .policy (.ok (Policy.Resource.planCreate s))
  | .planUpdate prior s p => .planned (Policy.Resource.planUpdate prior s p)
  | .planDestroy p => .hidden (Policy.Resource.planDestroy p)
  | .create s p => .policy (Policy.Resource.create slot s p answer)
  | .update prior s p => .policy (Policy.Resource.update slot prior s p answer)
  | .destroy s => .checked (Policy.Resource.destroy slot s answer)
  | .importPolicy id => .policy (Policy.Resource.importId slot id answer)
  | .call c =>
    match slot with
    | none => .called c none []
    | some client => .called c (some (client.result c answer)) (client.issued c)

end Step

def Step.seen (slot : Option Client) (now : String) (answer : Http.Answer) (s : Step) : Result :=
  (s.result slot now answer).onRequests fun l => l.flatMap (Http.Request.sent answer)

def Session.run (now : String) : Option Client → List (Step × Http.Answer) → List Step.Result
  | _, [] => []
  | slot, (s, a) :: l => s.seen slot now a :: run now (s.slot slot) l

end ProtectionProvider
