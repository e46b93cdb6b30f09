/-
  OpenFelt.Client.Connections — clients, their connections and one table
  (`src/network_server.rs`, `run_multi_bound_connection`).

  Translation. A connection is the client's app at its far end, the commands its loop has
  not read, the messages the client has not got (both in the order sent) and what the
  loop can still read of a subscription that has ended. A step is one thing that happens
  somewhere: the loop's reads and writes are steps of their own, so every order that its
  polling can bring about is a run. The `SnapshotRequest` and the lobby's messages are
  left out, and the reconnect credential of the `Welcome`.
-/

import OpenFelt.Client.Recovery

namespace OpenFelt

structure Connection where
  app : NetworkApp
  requests : List CommandEnvelope
  replies : List ServerWireMessage
  buffered : List SubscriptionUpdate
  deriving DecidableEq, Repr

structure Net where
  runtime : RuntimeState
  connections : OrdMap GuestSessionId Connection

/-- The session a request is made for. -/
def RuntimeOp.session : RuntimeOp → Option GuestSessionId
  | bind session _ _ _ | submit session _ | subscribe session | receive session | hangUp session | disconnect session
  | reconnect session => some session
  | advanceTime _ | progressShowdown _ => none

inductive NetStep where
  | welcome (session : GuestSessionId) (nonce : Nat)
  | act (session : GuestSessionId) (action : Action)
  | prefer (session : GuestSessionId) (alwaysShow : Bool)
  /-- The loop writes the next update of its subscription. -/
  | forward (session : GuestSessionId)
  /-- The loop reads the next command, submits it and writes the answer. -/
  | serve (session : GuestSessionId)
  /-- The client gets the next message. -/
  | deliver (session : GuestSessionId)
  /-- The connection closes. -/
  | close (session : GuestSessionId)
  /-- Anything else that is asked of the runtime: the clock, the showdown, other sessions. -/
  | request (op : RuntimeOp)
  deriving DecidableEq, Repr

namespace Net

variable (net : Net)

/-- The runtime moved on: a subscription that has ended leaves its loop what it held. -/
def asked (runtime : RuntimeState) : Net where
  runtime := runtime
  connections := net.connections.mapVal fun session connection =>
    if net.runtime.subscribers.contains session && !runtime.subscribers.contains session then
      { connection with buffered := net.runtime.channel session }
    else connection

def put (session : GuestSessionId) (connection : Connection) : Net :=
  { net with connections := net.connections.insert session connection }

/-- `reconnect`, `subscribe` and the `Welcome` that bootstraps a client. -/
def welcome (session : GuestSessionId) (nonce : Nat) : Net :=
  match net.runtime.reconnect session with
  | (.error _, runtime) => net.asked runtime
  | (.ok (), reconnected) =>
    match reconnected.subscribe session with
    | (.error _, runtime) => ((net.asked reconnected).asked runtime).asked (runtime.disconnect session).2
    | (.ok (), runtime) =>
      let subscribed := (net.asked reconnected).asked runtime
      match (runtime.channel session).map ProjectionClient.bootstrapFromUpdate with
      | .ok client :: _ => (subscribed.asked ((RuntimeOp.receive session).apply runtime)).put session
        ⟨.new client nonce, [], [], []⟩
      | _ => subscribed.asked (runtime.disconnect session).2

/-- What the client prepares is sent. -/
def send (session : GuestSessionId) (connection : Connection)
    (prepared : Except ProjectionClientError CommandEnvelope × NetworkApp) : Net :=
  match prepared with
  | (.ok command, app) => net.put session { connection with app := app, requests := connection.requests ++ [command] }
  | (.error _, app) => net.put session { connection with app := app }

def forward (session : GuestSessionId) (connection : Connection) : Net :=
  if net.runtime.subscribers.contains session then
    match net.runtime.channel session with
    | [] => net
    | update :: _ =>
      put { net with runtime := (RuntimeOp.receive session).apply net.runtime } session
        { connection with replies := connection.replies ++ [.update update] }
  else
    match connection.buffered with
    | [] => net
    | update :: rest => net.put session { connection with replies := connection.replies ++ [.update update], buffered := rest }

/-- The answer to the first command is written. -/
def answer (session : GuestSessionId) (message : ServerWireMessage) : Net :=
  { net with connections := net.connections.modify session fun connection =>
      { connection with requests := connection.requests.tail, replies := connection.replies ++ [message] } }

def serve (session : GuestSessionId) (command : CommandEnvelope) : Net :=
  if command.tableId ≠ net.runtime.tableId then
    net.answer session (.error ⟨"wrong_table", "session is routed to a different table"⟩)
  else
    match net.runtime.submit session command with
    | (.ok response, runtime) => (net.asked runtime).answer session (.response response)
    | (.error error, runtime) => (net.asked runtime).answer session (.error ⟨error.code.name, error.message⟩)

def step : NetStep → Net
  | .welcome session nonce => if net.connections.contains session then net else net.welcome session nonce
  | .act session action =>
    match net.connections.find? session with
    | none => net
    | some connection => net.send session connection (connection.app.prepareAction action)
  | .prefer session alwaysShow =>
    match net.connections.find? session with
    | none => net
    | some connection => net.send session connection (connection.app.prepareShowdownPreference alwaysShow)
  | .forward session =>
    match net.connections.find? session with
    | none => net
    | some connection => net.forward session connection
  | .serve session =>
    match net.connections.find? session with
    | none => net
    | some connection =>
      match connection.requests with
      | [] => net
      | command :: _ => net.serve session command
  | .deliver session =>
    match net.connections.find? session with
    | none => net
    | some connection =>
      match connection.replies with
      | [] => net
      | message :: rest => net.put session { connection with app := (connection.app.applyMessage message).2, replies := rest }
  | .close session =>
    if net.connections.contains session then
      asked { net with connections := net.connections.erase session } ((RuntimeOp.disconnect session).apply net.runtime)
    else net
  | .request op =>
    if op.session.any fun session => net.connections.contains session then net else net.asked (op.apply net.runtime)

def run (steps : List NetStep) : Net := steps.foldl step net

/-- The error a client's app reports in a step. -/
def failure : NetStep → Option ProjectionClientError
  | .deliver session =>
    match net.connections.find? session with
    | none => none
    | some connection =>
      match connection.replies with
      | [] => none
      | message :: _ =>
        match (connection.app.applyMessage message).1 with
        | .ok () => none
        | .error error => some error
  | _ => none

end Net

end OpenFelt
