import Guandan.Client.ServerTexts
import Guandan.Library.Simulation
import Guandan.Network.ClientAgreement
import Guandan.Protocol.Requests

/-!
# A room and a client that exchange texts

The parties of `ClientServer.lean` with what is really on its way between them. The server writes a text for
each message that it sends and takes a text for the request that its parser reads; the client hears the texts
with its listeners and sends its requests through its socket. The texts on the way are those of the messages
and requests that are on the way in the model without texts (`Carries`), whatever the two do (`Carries.step`).
-/

namespace Guandan

open Quoted Client

/-- The text is one that the server writes for the message. -/
def Writes (m : ServerMessage) (text : Text) : Prop :=
  ∃ msg, Written m msg ∧ text = Protocol.messageToJson msg

/-- The text is one that the client sends for the request. -/
def Asks (roomId token : Text) (q : Request) (text : Text) : Prop :=
  ∃ requestId, text = Protocol.requestText requestId roomId token q

/-- The request that the server takes a text for. -/
def Protocol.requestOf (text : Text) : Option Request := (Protocol.parseMessage text).bind Protocol.asked

structure Exchange where
  table : Table
  targets : SpectateTargets := Room.clearSpectateTargets
  notices : List Notice := []
  inbox : List Text := []
  outbox : List Text := []
  client : Client
  listeners : Nat := 0
  socket : WebSocketClient

/-- The inputs of `ClientServerOp`, with the texts that the server writes. -/
inductive ExchangeOp
  | serve (op : TableOp) (texts : List Text)
  | spectateTeammate (playerId : PlayerId) (targetSeat : Int) (texts : List Text)
  | answer (i : Nat) (σ : Shuffle) (texts : List Text)
  | runNotice (i : Nat) (texts : List Text)
  | elsewhere (i : Nat) (texts : List Text)
  | read
  | tap (t : Tap)
  | listen

namespace ClientServer

/-- With nothing on its way. -/
def quiet (w : ClientServer) : ClientServer := { w with inbox := [], outbox := [] }

/-- The server goes on as in `r`, and what it tells there is sent. -/
def goOn (w r : ClientServer) : ClientServer :=
  { w with table := r.table, targets := r.targets, notices := r.notices, inbox := w.inbox ++ r.inbox }

section Quiet

variable (viewer : PlayerId) (w : ClientServer)

theorem serve_quiet (op : TableOp) : w.serve viewer op = (w.quiet.serve viewer op).map w.goOn := by
  rw [serve, serve, Option.map_map]
  rfl

theorem handleSpectateTeammate_quiet (playerId : PlayerId) (targetSeat : Int) :
    w.handleSpectateTeammate viewer playerId targetSeat =
      w.goOn (w.quiet.handleSpectateTeammate viewer playerId targetSeat) := by
  unfold handleSpectateTeammate
  dsimp only [quiet]
  by_cases hfound : w.table.finds playerId = true
  · by_cases hphase : w.table.room.phase = .playing
    · rcases hset : w.table.room.setSpectateTarget w.targets playerId targetSeat with _ | targets <;>
        simp [hfound, hphase, goOn, send]
    · simp [hfound, hphase, goOn, send]
  · simp [hfound, goOn, send]

theorem handleReconnect_quiet : w.handleReconnect viewer = w.goOn (w.quiet.handleReconnect viewer) := by
  unfold handleReconnect
  dsimp only [quiet]
  by_cases hfound : w.table.finds viewer = true <;> simp [hfound, goOn, send]

theorem handleLogin_quiet : w.handleLogin viewer = w.goOn (w.quiet.handleLogin viewer) := by
  unfold handleLogin
  dsimp only [quiet]
  by_cases hfound : w.table.finds viewer = true
  · by_cases hphase : w.table.room.phase = .finished <;> simp [hfound, hphase, goOn, send]
  · simp [hfound, goOn, send]

theorem answer_quiet (σ : Shuffle) (q : Request) :
    w.answer viewer σ q = (w.quiet.answer viewer σ q).map w.goOn := by
  cases q with
  | spectateTeammate targetSeat =>
    exact congrArg some (w.handleSpectateTeammate_quiet viewer viewer targetSeat)
  | login => exact congrArg some (w.handleLogin_quiet viewer)
  | reconnect => exact congrArg some (w.handleReconnect_quiet viewer)
  | _ => exact w.serve_quiet viewer _

end Quiet

end ClientServer

namespace Exchange

section Steps

variable (viewer : PlayerId) (validate : List CardId → Nat → Option (List CardId) → Bool)
  (roomId token : Text) (x : Exchange)

/-- All but the texts. -/
def parties : ClientServer :=
  { table := x.table, targets := x.targets, notices := x.notices, client := x.client,
    listeners := x.listeners }

/-! ### The server -/

/-- The server goes on as in `r`, and these texts are sent. -/
def goOn (r : ClientServer) (texts : List Text) : Exchange :=
  { x with table := r.table, targets := r.targets, notices := r.notices, inbox := x.inbox ++ texts }

/-- What the server makes of an input; what it tells the client is in the inbox. -/
def served : ExchangeOp → Option ClientServer
  | .serve op _ => x.parties.serve viewer op
  | .spectateTeammate playerId targetSeat _ =>
    some (x.parties.handleSpectateTeammate viewer playerId targetSeat)
  | .answer i σ _ => (x.outbox[i]?.bind Protocol.requestOf).bind (x.parties.answer viewer σ)
  | .runNotice i _ => x.notices[i]?.map fun notice =>
      { x.parties with notices := x.notices.eraseIdx i }.send (x.parties.noticeSent viewer notice)
  | _ => none

/-! ### The client -/

/-- A request is sent, if there is a connection. -/
def ask (q : Request) : Exchange :=
  let (text, socket) := (q.outgoing roomId token).send x.socket
  { x with outbox := x.outbox ++ text.toList, socket := socket }

def hear (text : Text) : Exchange :=
  let (c, qs) := Decoded.hear x.client text
  qs.foldl (ask roomId token) { x with client := c }

def read : Option Exchange :=
  match x.inbox with
  | [] => none
  | text :: inbox => some ((hear roomId token · text)^[x.listeners + 1] { x with inbox := inbox })

def tap (t : Tap) : Exchange :=
  let (c, request) := x.client.tap validate t
  request.toList.foldl (ask roomId token) { x with client := c }

end Steps

end Exchange

/-- A room and the client of one player, who talk in texts. -/
def exchange (viewer : PlayerId) (validate : List CardId → Nat → Option (List CardId) → Bool)
    (roomId token : Text) : Machine Exchange ExchangeOp Unit where
  step x op := Option.map (·, ()) <| match op with
    | .serve _ texts | .spectateTeammate _ _ texts | .runNotice _ texts =>
      (x.served viewer op).map (x.goOn · texts)
    | .answer i _ texts =>
      (x.served viewer op).map (Exchange.goOn { x with outbox := x.outbox.eraseIdx i } · texts)
    | .elsewhere i texts =>
      some { x with inbox := x.inbox ++ texts, outbox := x.outbox.eraseIdx i }
    | .read => x.read roomId token
    | .tap t => some (x.tap validate roomId token t)
    | .listen => some { x with listeners := x.listeners + 1 }

/-- What is sent is what the server has written, and no request that it takes has a number too wide. -/
def ExchangeCall (viewer : PlayerId) (roomId token : Text) (x : Exchange) (op : ExchangeOp) : Prop :=
  match op with
  | .serve o texts => TableCall x.table o ∧ o.sender? ≠ some viewer ∧
      ∀ r ∈ x.served viewer op, List.Forall₂ Writes r.inbox texts
  | .spectateTeammate playerId _ texts => playerId ≠ viewer ∧
      ∀ r ∈ x.served viewer op, List.Forall₂ Writes r.inbox texts
  | .answer i _ texts => (∀ q, ∀ text ∈ x.outbox[i]?, Asks roomId token q text → q.Fits) ∧
      ∀ r ∈ x.served viewer op, List.Forall₂ Writes r.inbox texts
  | .runNotice _ texts => ∀ r ∈ x.served viewer op, List.Forall₂ Writes r.inbox texts
  | .elsewhere _ texts => x.table.finds viewer = false ∧ ∀ text ∈ texts, ∃ m, Writes m text
  | _ => True

/-- The texts are those of the messages and requests that are on their way. -/
structure Exchange.Carries (roomId token : Text) (x : Exchange) (w : ClientServer) : Prop where
  parties : x.parties = w.quiet
  inbox : List.Forall₂ Writes w.inbox x.inbox
  outbox : List.Forall₂ (Asks roomId token) w.outbox x.outbox
  connected : x.socket.connected = true

/-- The request of a room that the server takes in this step. -/
def ExchangeOp.tableOp (viewer : PlayerId) (x : Exchange) : ExchangeOp → Option TableOp
  | .serve op _ => some op
  | .answer i σ _ => (x.outbox[i]?.bind Protocol.requestOf).bind (Request.op viewer σ)
  | _ => none

/-- A step after which a client can follow that knows what is on its way. -/
def ExchangeOp.Careful (viewer : PlayerId) (roomId token : Text) (x : Exchange) (op : ExchangeOp) : Prop :=
  ∀ w, x.Carries roomId token w → ∀ o ∈ op.tableOp viewer x, ∀ a ∈ x.table.apply o,
    w.ServedWell viewer o a.1 a.2

namespace Exchange.Carries

variable {viewer : PlayerId} {validate : List CardId → Nat → Option (List CardId) → Bool}
  {roomId token : Text} {x x' : Exchange} {w r : ClientServer} {texts : List Text}

theorem table (h : x.Carries roomId token w) : x.table = w.table := congrArg ClientServer.table h.parties

theorem notices (h : x.Carries roomId token w) : x.notices = w.notices :=
  congrArg ClientServer.notices h.parties

theorem client (h : x.Carries roomId token w) : x.client = w.client := congrArg ClientServer.client h.parties

theorem listeners (h : x.Carries roomId token w) : x.listeners = w.listeners :=
  congrArg ClientServer.listeners h.parties

theorem goOn (h : x.Carries roomId token w) (htexts : List.Forall₂ Writes r.inbox texts) :
    (x.goOn r texts).Carries roomId token (w.goOn r) where
  parties := by
    have hclient := h.client
    have hlisteners := h.listeners
    simp only [Exchange.parties, Exchange.goOn, ClientServer.quiet, ClientServer.goOn, hclient, hlisteners]
  inbox := h.inbox.append htexts
  outbox := h.outbox
  connected := h.connected

/-- A request is no longer on its way. -/
theorem erased (h : x.Carries roomId token w) (i : Nat) :
    Carries roomId token { x with outbox := x.outbox.eraseIdx i }
      { w with outbox := w.outbox.eraseIdx i } where
  parties := h.parties
  inbox := h.inbox
  outbox := h.outbox.eraseIdx i
  connected := h.connected

/-- The server takes a request that fits for what it is. -/
theorem taken (h : x.Carries roomId token w) (hroom : Protocol.Sendable roomId)
    (htoken : Protocol.Sendable token) {i : Nat} {text : Text} (htext : x.outbox[i]? = some text)
    (hfits : ∀ q, Asks roomId token q text → q.Fits) :
    ∃ q, w.outbox[i]? = some q ∧ Protocol.requestOf text = some q := by
  obtain ⟨q, hq, hasks⟩ := h.outbox.getElem?_right htext
  obtain ⟨requestId, rfl⟩ := hasks
  obtain ⟨msg, hparse, hasked⟩ : ∃ msg,
      Protocol.parseMessage (Protocol.requestText requestId roomId token q) = some msg ∧
        Protocol.asked msg = some q :=
    (Protocol.asked_iff hroom htoken q).2 (hfits q ⟨requestId, rfl⟩)
  exact ⟨q, hq, by rw [Protocol.requestOf, hparse]; exact hasked⟩

/-! ### The client -/

theorem asked (h : x.Carries roomId token w) (q : Request) :
    (x.ask roomId token q).Carries roomId token { w with outbox := w.outbox ++ [q] } := by
  have hsend (s : WebSocketClient) (hs : s.connected = true) : (q.outgoing roomId token).send s =
      (some (Protocol.requestText (s.requestId + 1) roomId token q),
        { s with requestId := s.requestId + 1 }) := by
    obtain ⟨connected, requestId⟩ := s
    cases hs
    rfl
  rw [Exchange.ask, hsend x.socket h.connected]
  exact ⟨h.parties, h.inbox, h.outbox.append (.cons ⟨_, rfl⟩ .nil), h.connected⟩

theorem askedAll (h : x.Carries roomId token w) (qs : List Request) :
    (qs.foldl (ask roomId token) x).Carries roomId token { w with outbox := w.outbox ++ qs } := by
  induction qs generalizing x w with
  | nil =>
    rw [List.append_nil]
    exact h
  | cons q qs ih =>
    have hrest := ih (h.asked q)
    rw [List.append_assoc] at hrest
    exact hrest

/-- The client changes, and asks for something. -/
theorem moved (h : x.Carries roomId token w) (c : Client) (qs : List Request) :
    (qs.foldl (ask roomId token) { x with client := c }).Carries roomId token
      { w with client := c, outbox := w.outbox ++ qs } := by
  have hclient : Carries roomId token { x with client := c } { w with client := c } :=
    ⟨congrArg (fun v : ClientServer => { v with client := c }) h.parties, h.inbox, h.outbox, h.connected⟩
  exact hclient.askedAll qs

theorem hear {text : Text} {m : ServerMessage} (h : x.Carries roomId token w) (hwrites : Writes m text) :
    (x.hear roomId token text).Carries roomId token (w.hear m) := by
  obtain ⟨msg, hwritten, rfl⟩ := hwrites
  rw [Exchange.hear, Decoded.hear_written x.client hwritten, h.client]
  exact h.moved _ _

/-- A text is read as often as there are listeners. -/
theorem read (h : x.Carries roomId token w) (hread : x.read roomId token = some x') :
    ∃ w', w.read = some w' ∧ x'.Carries roomId token w' := by
  unfold Exchange.read at hread
  rcases hinbox : x.inbox with _ | ⟨text, rest⟩ <;> rw [hinbox] at hread
  · cases hread
  cases hread
  have hwritten := h.inbox
  rw [hinbox] at hwritten
  rcases hmessages : w.inbox with _ | ⟨m, inbox⟩ <;> rw [hmessages] at hwritten <;> cases hwritten
  case cons hwrites hrest =>
    have hbefore : Carries roomId token { x with inbox := rest } { w with inbox := inbox } :=
      ⟨h.parties, hrest, h.outbox, h.connected⟩
    have hheard : ∀ n, Carries roomId token ((Exchange.hear roomId token · text)^[n] { x with inbox := rest })
        ((ClientServer.hear · m)^[n] { w with inbox := inbox }) := by
      intro n
      induction n with
      | zero => exact hbefore
      | succ n ih =>
        rw [Function.iterate_succ_apply', Function.iterate_succ_apply']
        exact ih.hear hwrites
    refine ⟨_, ?_, hheard (x.listeners + 1)⟩
    rw [ClientServer.read, hmessages]
    exact congrArg (fun n => some ((ClientServer.hear · m)^[n + 1] { w with inbox := inbox }))
      h.listeners.symm

/-! ### Steps -/

/-- A step is matched by one of the model without texts, in which the server takes the same request. -/
theorem step (h : x.Carries roomId token w) (hroom : Protocol.Sendable roomId)
    (htoken : Protocol.Sendable token) {op : ExchangeOp} {o : Unit}
    (hcall : ExchangeCall viewer roomId token x op)
    (hstep : (exchange viewer validate roomId token).step x op = some (x', o)) :
    ∃ op' w', ClientServerCall viewer w op' ∧ op'.tableOp viewer w = op.tableOp viewer x ∧
      (clientServer viewer validate).step w op' = some (w', ()) ∧ x'.Carries roomId token w' := by
  obtain ⟨x₁, hnext, heq⟩ := Option.map_eq_some_iff.1 hstep
  cases heq
  cases op with
  | serve op texts =>
    obtain ⟨htable, hsender, htexts⟩ := hcall
    obtain ⟨r, hr, rfl⟩ := Option.map_eq_some_iff.1 hnext
    refine ⟨.serve op, w.goOn r, ⟨h.table ▸ htable, hsender⟩, rfl, ?_, h.goOn (htexts r hr)⟩
    have hserved : w.quiet.serve viewer op = some r := h.parties ▸ hr
    simp [clientServer, w.serve_quiet viewer op, hserved]
  | spectateTeammate playerId targetSeat texts =>
    obtain ⟨hother, htexts⟩ := hcall
    obtain ⟨r, hr, rfl⟩ := Option.map_eq_some_iff.1 hnext
    refine ⟨.spectateTeammate playerId targetSeat, w.goOn r, hother, rfl, ?_, h.goOn (htexts r hr)⟩
    have hserved : w.quiet.handleSpectateTeammate viewer playerId targetSeat = r :=
      h.parties ▸ Option.some.inj hr
    simp [clientServer, w.handleSpectateTeammate_quiet, hserved]
  | answer i σ texts =>
    obtain ⟨hfits, htexts⟩ := hcall
    obtain ⟨r, hr, rfl⟩ := Option.map_eq_some_iff.1 hnext
    obtain ⟨q, hq, hanswer⟩ := Option.bind_eq_some_iff.1 hr
    obtain ⟨text, htext, hread⟩ := Option.bind_eq_some_iff.1 hq
    obtain ⟨q', hq', hread'⟩ := h.taken hroom htoken htext fun q hasks => hfits q text htext hasks
    obtain rfl : q = q' := Option.some.inj (hread.symm.trans hread')
    refine ⟨.answer i σ, _, trivial, ?_, ?_, (h.erased i).goOn (htexts r hr)⟩
    · simp only [ClientServerOp.tableOp, ExchangeOp.tableOp, hq', hq]
    · have hserved : w.quiet.answer viewer σ q = some r := h.parties ▸ hanswer
      have hsame : ClientServer.quiet { w with outbox := w.outbox.eraseIdx i } = w.quiet := rfl
      simp [clientServer, hq', ClientServer.answer_quiet viewer { w with outbox := w.outbox.eraseIdx i },
        hsame, hserved]
  | runNotice i texts =>
    obtain ⟨r, hr, rfl⟩ := Option.map_eq_some_iff.1 hnext
    obtain ⟨notice, hnotice, rfl⟩ := Option.map_eq_some_iff.1 hr
    refine ⟨.runNotice i, _, trivial, rfl, ?_, h.goOn (hcall _ hr)⟩
    rw [h.notices] at hnotice
    simp [clientServer, hnotice, h.parties, h.notices, ClientServer.send, ClientServer.goOn,
      ClientServer.quiet, ClientServer.noticeSent]
  | elsewhere i texts =>
    obtain ⟨haway, hwritten⟩ := hcall
    cases hnext
    obtain ⟨ms, hms⟩ := List.exists_forall₂ hwritten
    refine ⟨.elsewhere i ms, _, show w.table.finds viewer = false from h.table ▸ haway, rfl, rfl, ?_⟩
    exact ⟨h.parties, h.inbox.append hms, h.outbox.eraseIdx i, h.connected⟩
  | read =>
    obtain ⟨w', hread, hcarries⟩ := h.read hnext
    exact ⟨.read, w', trivial, rfl, by simp [clientServer, hread], hcarries⟩
  | tap t =>
    cases hnext
    refine ⟨.tap t, _, trivial, rfl, rfl, ?_⟩
    rw [Exchange.tap, h.client]
    exact h.moved _ _
  | listen =>
    cases hnext
    exact ⟨.listen, _, trivial, rfl, rfl,
      congrArg (fun v : ClientServer => { v with listeners := v.listeners + 1 }) h.parties, h.inbox, h.outbox,
      h.connected⟩

end Exchange.Carries

end Guandan
