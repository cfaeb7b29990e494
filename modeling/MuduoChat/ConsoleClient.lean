import MuduoChat.CallPrograms
import MuduoChat.ChatServerSteps
import MuduoChat.ConsoleInput
import MuduoChat.LabelledRuns
import MuduoChat.WireMessages
import Mathlib.Algebra.GroupWithZero.Nat
import Mathlib.Algebra.Ring.Int.Defs

/-!
# The console client

The client has two threads.  One asks for input and composes requests from
it, by one menu before the login and another one after it; the loop of the
connection sends what was composed and takes the messages of the server.  Both
share the flag that says whether the client is logged in.

The texts on the screen are left out, and so are the waiting times.  What is
typed are bytes, and protobuf writes them as they are; a message with a
string that is not UTF-8 is refused where it is parsed.
-/

namespace MuduoChat

/-! ## Envelopes with unchecked strings -/

/-- An envelope as the client composes it, with the fields that it sets. -/
inductive RawEnvelope where
  | registerReq (uid passwd : List UInt8)
  | loginReq (uid passwd : List UInt8)
  | chatMsg (recipient room content : List UInt8)
  | createRoom (name : List UInt8)
  | joinRoom (roomName uid : List UInt8)
  | friendReq (toUid message : List UInt8)
  | friendResp (fromUid toUid : List UInt8) (accepted : Bool)
  | recallMsg (msgId : ℕ) (toUid room : List UInt8)
  | logoutReq (uid : List UInt8)
  deriving DecidableEq

namespace RawEnvelope

def strings : RawEnvelope → List (List UInt8)
  | registerReq uid passwd | loginReq uid passwd => [uid, passwd]
  | chatMsg recipient room content => [recipient, room, content]
  | createRoom name => [name]
  | joinRoom roomName uid => [roomName, uid]
  | friendReq toUid message => [toUid, message]
  | friendResp fromUid toUid _ => [fromUid, toUid]
  | recallMsg _ toUid room => [toUid, room]
  | logoutReq uid => [uid]

/-- What the receiver parses: all strings have to be UTF-8. -/
def parse : RawEnvelope → Option Envelope
  | registerReq uid passwd => do
      return .registerReq
        { uid := ← stringOf? uid, passwd := ← stringOf? passwd }
  | loginReq uid passwd => do
      return .loginReq
        { uid := ← stringOf? uid, passwd := ← stringOf? passwd }
  | chatMsg recipient room content => do
      return .chatMsg
        { recipient := ← stringOf? recipient
          room := ← stringOf? room
          content := ← stringOf? content }
  | createRoom name => do
      return .createRoom { name := ← stringOf? name }
  | joinRoom roomName uid => do
      return .joinRoom
        { roomName := ← stringOf? roomName, uid := ← stringOf? uid }
  | friendReq toUid message => do
      return .friendReq
        { toUid := ← stringOf? toUid, message := ← stringOf? message }
  | friendResp fromUid toUid accepted => do
      return .friendResp
        { fromUid := ← stringOf? fromUid
          toUid := ← stringOf? toUid
          accepted := accepted }
  | recallMsg msgId toUid room => do
      return .recallMsg
        { msgId := msgId, toUid := ← stringOf? toUid
          room := ← stringOf? room }
  | logoutReq uid => do
      return .logoutReq { uid := ← stringOf? uid }

theorem isSome_parse (raw : RawEnvelope) :
    raw.parse.isSome ↔ ∀ text ∈ raw.strings, (stringOf? text).isSome := by
  cases raw <;>
    simp [parse, strings, Option.isSome_bind, Option.any_eq_true_iff_get]
  case chatMsg => tauto

section Serialize

open WireFormat

def serialize : RawEnvelope → List UInt8
  | registerReq uid passwd =>
      messageField 12 (bytesField 1 uid ++ bytesField 2 passwd)
  | loginReq uid passwd =>
      messageField 10 (bytesField 1 uid ++ bytesField 2 passwd)
  | chatMsg recipient room content =>
      messageField 20 (bytesField 2 recipient ++ bytesField 3 room ++
        bytesField 4 content)
  | createRoom name => messageField 21 (bytesField 1 name)
  | joinRoom roomName uid =>
      messageField 22 (bytesField 1 roomName ++ bytesField 2 uid)
  | friendReq toUid message =>
      messageField 30 (bytesField 2 toUid ++ bytesField 3 message)
  | friendResp fromUid toUid accepted =>
      messageField 31 (bytesField 1 fromUid ++ bytesField 2 toUid ++
        boolField 3 accepted)
  | recallMsg msgId toUid room =>
      messageField 40 (uint64Field 1 msgId ++ bytesField 3 room ++
        bytesField 4 toUid)
  | logoutReq uid => messageField 11 (bytesField 1 uid)

end Serialize

end RawEnvelope

/-! ## Requests -/

/-- The `send` methods of the client. -/
inductive ClientRequest where
  | register (uid passwd : List UInt8)
  | login (uid passwd : List UInt8)
  | privateMsg (recipient content : List UInt8)
  | roomMsg (room content : List UInt8)
  | createRoom (name : List UInt8)
  | joinRoom (room uid : List UInt8)
  | friendReq (recipient message : List UInt8)
  | friendResp (requester : List UInt8) (accept : Bool)
  | recallMsg (msgId : ℕ) (toUid room : List UInt8)
  | logout
  deriving DecidableEq

def ClientRequest.envelope (currentUid : List UInt8) :
    ClientRequest → RawEnvelope
  | register uid passwd => .registerReq uid passwd
  | login uid passwd => .loginReq uid passwd
  | privateMsg recipient content => .chatMsg recipient [] content
  | roomMsg room content => .chatMsg [] room content
  | createRoom name => .createRoom name
  | joinRoom room uid => .joinRoom room uid
  | friendReq recipient message => .friendReq recipient message
  | friendResp requester accept => .friendResp currentUid requester accept
  | recallMsg msgId toUid room => .recallMsg msgId toUid room
  | logout => .logoutReq currentUid

/-! ## The menus -/

inductive ConsoleCall where
  | isLoggedIn
  | readLine
  | send (request : ClientRequest)
  | quit
  deriving DecidableEq

abbrev ConsoleCall.Answer : ConsoleCall → Type
  | isLoggedIn => Bool
  | readLine => List UInt8
  | send _ | quit => Unit

/-- A program of the console thread; the menus return whether to go on. -/
abbrev ConsoleProg := Prog ConsoleCall ConsoleCall.Answer

namespace Console

/-- `strtoull` to the base ten. -/
def strtoull (text : List UInt8) : ℕ :=
  match ChatService.scanInt (text.length + 1)
      (text.map fun byte => Char.ofNat byte.toNat) with
  | none => 0
  | some (value, _) =>
      if 2 ^ 64 ≤ value.natAbs then 2 ^ 64 - 1
      else (value % 2 ^ 64).toNat

def ask : ConsoleProg (List UInt8) :=
  Prog.request ConsoleCall.readLine

def sendAndGoOn (request : ClientRequest) : ConsoleProg Bool := do
  let _ ← Prog.request (ConsoleCall.send request)
  return true

def authMenu : ConsoleProg Bool := do
  let choice ← ask
  if choice = bytesOf "1" then
    let uid ← ask
    let pwd ← ask
    if uid = [] ∨ pwd = [] then return true
    else sendAndGoOn (.login uid pwd)
  else if choice = bytesOf "2" then
    let uid ← ask
    let pwd ← ask
    if uid = [] ∨ pwd = [] then return true
    else sendAndGoOn (.register uid pwd)
  else if choice = bytesOf "3" then
    let _ ← Prog.request ConsoleCall.quit
    return false
  else return true

def mainMenu : ConsoleProg Bool := do
  let choice ← ask
  if choice = bytesOf "1" then
    let recipient ← ask
    let content ← ask
    if recipient = [] ∨ content = [] then return true
    else sendAndGoOn (.privateMsg recipient content)
  else if choice = bytesOf "2" then
    let room ← ask
    let content ← ask
    if room = [] ∨ content = [] then return true
    else sendAndGoOn (.roomMsg room content)
  else if choice = bytesOf "3" then
    let name ← ask
    if name = [] then return true
    else sendAndGoOn (.createRoom name)
  else if choice = bytesOf "4" then
    let room ← ask
    let uid ← ask
    if room = [] ∨ uid = [] then return true
    else sendAndGoOn (.joinRoom room uid)
  else if choice = bytesOf "5" then
    let recipient ← ask
    let msg ← ask
    if recipient = [] then return true
    else sendAndGoOn (.friendReq recipient msg)
  else if choice = bytesOf "6" then
    let requester ← ask
    let accept ← ask
    if requester = [] then return true
    else sendAndGoOn (.friendResp requester (accept = bytesOf "1"))
  else if choice = bytesOf "7" then
    let idStr ← ask
    let toUid ← ask
    let room ← ask
    if idStr = [] then return true
    else sendAndGoOn (.recallMsg (strtoull idStr) toUid room)
  else if choice = bytesOf "8" then
    sendAndGoOn .logout
  else return true

/-- One round of the loop in the console thread. -/
def menu : ConsoleProg Bool := do
  let loggedIn ← Prog.request ConsoleCall.isLoggedIn
  if !loggedIn then authMenu else mainMenu

/-- The console thread waits for the connection first. -/
inductive Thread where
  | waiting
  | round (rest : ConsoleProg Bool)
  | ended

end Console

/-! ## The client -/

structure ChatClient where
  stdin : List UInt8
  /-- There is a connection that can be sent on. -/
  connected : Bool := false
  loggedIn : Bool := false
  currentUid : List UInt8 := []
  console : Console.Thread := .waiting
  /-- Everything that was ever composed. -/
  composed : List RawEnvelope := []
  /-- What waits in the loop to be sent. -/
  functors : List RawEnvelope := []
  /-- What has been sent, the oldest first. -/
  sent : List RawEnvelope := []

namespace ChatClient

/-- `shutdown` is the end of a connection on which a frame was too large. -/
inductive Action where
  | up
  | down
  | shutdown
  | console
  | flush
  | message (msg : ServerMessage)

def send (client : ChatClient) (request : ClientRequest) : ChatClient :=
  let envelope := request.envelope client.currentUid
  let queued : ChatClient := { client with
    composed := envelope :: client.composed
    functors := client.functors ++ [envelope] }
  match request with
  | .logout => { queued with loggedIn := false, currentUid := [] }
  | _ => queued

/-- Of the messages of the server only an accepted login leaves a trace. -/
def onServerMessage (client : ChatClient) : ServerMessage → ChatClient
  | .loginResp resp =>
      if resp.ok then { client with loggedIn := true } else client
  | _ => client

def goOn (client : ChatClient) (rest : ConsoleProg Bool) : ChatClient :=
  { client with console := .round rest }

/-- What the console thread does next. -/
def consoleStep (client : ChatClient) : Option ChatClient :=
  match client.console with
  | .waiting =>
      if client.connected then some (client.goOn Console.menu) else none
  | .round (.ret true) => some (client.goOn Console.menu)
  | .round (.ret false) => some { client with console := .ended }
  | .round (.call .isLoggedIn next) =>
      some (client.goOn (next client.loggedIn))
  | .round (.call .readLine next) =>
      let read := Console.readLine client.stdin
      some { client.goOn (next read.1) with stdin := read.2 }
  | .round (.call (.send request) next) =>
      some ((client.send request).goOn (next ()))
  | .round (.call .quit next) => some (client.goOn (next ()))
  | .ended => none

/-- The loop sends what was composed if there is a connection. -/
def flushStep (client : ChatClient) : Option ChatClient :=
  match client.functors with
  | [] => none
  | envelope :: rest =>
      let taken : ChatClient := { client with functors := rest }
      some (if client.connected then
        { taken with sent := client.sent ++ [envelope] } else taken)

def step (client : ChatClient) : Action → Option ChatClient
  | .up => some { client with connected := true }
  | .down =>
      some { client with
        connected := false, loggedIn := false, currentUid := [] }
  | .shutdown => some { client with connected := false }
  | .console => client.consoleStep
  | .flush => client.flushStep
  | .message msg => some (client.onServerMessage msg)

end ChatClient

/-! ## What the menus compose -/

namespace Console

/-- Bytes that can have been read from the console. -/
def IsLine (text : List UInt8) : Prop :=
  text.length ≤ 1023 ∧ newline ∉ text ∧ 0 ∉ text

def NonEmptyLine (text : List UInt8) : Prop := IsLine text ∧ text ≠ []

def Expected : (call : ConsoleCall) → call.Answer → Prop
  | .readLine, line => IsLine line
  | _, _ => True

end Console

open Console

/-- What the menus see to before they send a request. -/
def ClientRequest.Proper : ClientRequest → Prop
  | register first second | login first second | privateMsg first second
  | roomMsg first second | joinRoom first second =>
      NonEmptyLine first ∧ NonEmptyLine second
  | createRoom name => NonEmptyLine name
  | friendReq recipient message => NonEmptyLine recipient ∧ IsLine message
  | friendResp requester _ => NonEmptyLine requester
  | recallMsg msgId toUid room => msgId < 2 ^ 64 ∧ IsLine toUid ∧ IsLine room
  | logout => True

def ConsoleCall.Proper : ConsoleCall → Prop
  | send request => request.Proper
  | _ => True

/-- The envelopes of proper requests, by a client that knows no uid of its
own. -/
def Composed (raw : RawEnvelope) : Prop :=
  ∃ request : ClientRequest, request.Proper ∧ raw = request.envelope []

namespace Console

theorem strtoull_lt (text : List UInt8) : strtoull text < 2 ^ 64 := by
  unfold strtoull
  split
  · decide
  · rename_i value _ _
    split
    · decide
    · have hnonneg := Int.emod_nonneg value
        (show (2 ^ 64 : Int) ≠ 0 by decide)
      have hlt := Int.emod_lt_of_pos value
        (show (0 : Int) < 2 ^ 64 by decide)
      omega

/-- A program of the console thread that sends only proper requests. -/
abbrev Careful {α : Type} (prog : ConsoleProg α) : Prop :=
  prog.Keeps Expected ConsoleCall.Proper

theorem careful_ask {α : Type} {next : List UInt8 → ConsoleProg α}
    (hnext : ∀ line, IsLine line → Careful (next line)) :
    Careful (ask >>= next) :=
  Prog.keeps_call.mpr ⟨trivial, hnext⟩

theorem careful_send {request : ClientRequest} (hproper : request.Proper) :
    Careful (sendAndGoOn request) :=
  Prog.keeps_call.mpr ⟨hproper, fun _ _ => Prog.keeps_ret⟩

/-- Two questions, both of which have to be answered. -/
theorem careful_askBoth
    {request : List UInt8 → List UInt8 → ClientRequest}
    (hproper : ∀ first second, NonEmptyLine first → NonEmptyLine second →
      (request first second).Proper) :
    Careful (ask >>= fun first => ask >>= fun second =>
      if first = [] ∨ second = [] then pure true
      else sendAndGoOn (request first second)) := by
  refine careful_ask fun first hfirst => careful_ask fun second hsecond => ?_
  split
  · exact Prog.keeps_ret
  · rename_i hsome
    obtain ⟨hone, htwo⟩ := not_or.mp hsome
    exact careful_send (hproper first second ⟨hfirst, hone⟩ ⟨hsecond, htwo⟩)

/-- Two questions, the first of which has to be answered. -/
theorem careful_askFirst
    {request : List UInt8 → List UInt8 → ClientRequest}
    (hproper : ∀ first second, NonEmptyLine first → IsLine second →
      (request first second).Proper) :
    Careful (ask >>= fun first => ask >>= fun second =>
      if first = [] then pure true
      else sendAndGoOn (request first second)) := by
  refine careful_ask fun first hfirst => careful_ask fun second hsecond => ?_
  split
  · exact Prog.keeps_ret
  · rename_i hsome
    exact careful_send (hproper first second ⟨hfirst, hsome⟩ hsecond)

theorem careful_authMenu : Careful authMenu := by
  refine careful_ask fun choice _ => ?_
  split
  · exact careful_askBoth fun _ _ hfirst hsecond => ⟨hfirst, hsecond⟩
  split
  · exact careful_askBoth fun _ _ hfirst hsecond => ⟨hfirst, hsecond⟩
  split
  · exact Prog.keeps_call.mpr ⟨trivial, fun _ _ => Prog.keeps_ret⟩
  · exact Prog.keeps_ret

theorem careful_mainMenu : Careful mainMenu := by
  refine careful_ask fun choice _ => ?_
  split
  · exact careful_askBoth fun _ _ hfirst hsecond => ⟨hfirst, hsecond⟩
  split
  · exact careful_askBoth fun _ _ hfirst hsecond => ⟨hfirst, hsecond⟩
  split
  · refine careful_ask fun name hname => ?_
    split
    · exact Prog.keeps_ret
    · rename_i hsome
      exact careful_send ⟨hname, hsome⟩
  split
  · exact careful_askBoth fun _ _ hfirst hsecond => ⟨hfirst, hsecond⟩
  split
  · exact careful_askFirst fun _ _ hfirst hsecond => ⟨hfirst, hsecond⟩
  split
  · exact careful_askFirst fun _ _ hfirst _ => hfirst
  split
  · refine careful_ask fun idStr _ => careful_ask fun toUid htoUid =>
      careful_ask fun room hroom => ?_
    split
    · exact Prog.keeps_ret
    · exact careful_send ⟨strtoull_lt idStr, htoUid, hroom⟩
  split
  · exact careful_send trivial
  · exact Prog.keeps_ret

theorem careful_menu : Careful menu := by
  refine Prog.keeps_call.mpr ⟨trivial, fun loggedIn _ => ?_⟩
  cases loggedIn with
  | false => exact careful_authMenu
  | true => exact careful_mainMenu

end Console

namespace ChatClient

variable {client next : ChatClient} {action : Action}

/-- Nothing but proper requests was composed, and the client never learns a
uid of its own. -/
structure Composes (client : ChatClient) : Prop where
  currentUid : client.currentUid = []
  console : ∀ rest, client.console = .round rest → Careful rest
  composed : ∀ raw ∈ client.composed, Composed raw
  functors : ∀ raw ∈ client.functors, raw ∈ client.composed
  sent : ∀ raw ∈ client.sent, raw ∈ client.composed

theorem composes_start (stdin : List UInt8) :
    Composes { stdin := stdin } := by
  constructor <;> simp

theorem Composes.goOn {rest : ConsoleProg Bool} (hclient : Composes client)
    (hrest : Careful rest) : Composes (client.goOn rest) := by
  refine ⟨hclient.currentUid, ?_, hclient.composed, hclient.functors,
    hclient.sent⟩
  intro other hother
  cases hother
  exact hrest

theorem Composes.send {request : ClientRequest} (hclient : Composes client)
    (hproper : request.Proper) : Composes (client.send request) := by
  have hcomposed : ∀ raw ∈ request.envelope client.currentUid ::
      client.composed, Composed raw := by
    intro raw hraw
    rcases List.mem_cons.mp hraw with rfl | hold
    · rw [hclient.currentUid]
      exact ⟨request, hproper, rfl⟩
    · exact hclient.composed raw hold
  have hfunctors : ∀ raw ∈ client.functors ++
      [request.envelope client.currentUid],
        raw ∈ request.envelope client.currentUid :: client.composed := by
    intro raw hraw
    rcases List.mem_append.mp hraw with hold | hnew
    · exact List.mem_cons_of_mem _ (hclient.functors raw hold)
    · rw [List.mem_singleton.mp hnew]
      exact List.mem_cons_self
  have hsent : ∀ raw ∈ client.sent,
      raw ∈ request.envelope client.currentUid :: client.composed :=
    fun raw hraw => List.mem_cons_of_mem _ (hclient.sent raw hraw)
  cases request with
  | logout => exact ⟨rfl, hclient.console, hcomposed, hfunctors, hsent⟩
  | _ =>
      exact ⟨hclient.currentUid, hclient.console, hcomposed, hfunctors,
        hsent⟩

theorem Composes.consoleStep (hclient : Composes client)
    (hstep : client.consoleStep = some next) : Composes next := by
  unfold ChatClient.consoleStep at hstep
  split at hstep
  · obtain ⟨_, hstep⟩ := Option.ite_none_right_eq_some.mp hstep
    cases hstep
    exact hclient.goOn careful_menu
  · cases hstep
    exact hclient.goOn careful_menu
  · cases hstep
    exact ⟨hclient.currentUid, by simp, hclient.composed,
      hclient.functors, hclient.sent⟩
  · rename_i next hconsole
    cases hstep
    exact hclient.goOn ((hclient.console _ hconsole).2 _ trivial)
  · rename_i next hconsole
    cases hstep
    have hmoved := hclient.goOn ((hclient.console _ hconsole).2
      (readLine client.stdin).1 (readLine_spec client.stdin))
    exact ⟨hmoved.currentUid, hmoved.console, hmoved.composed,
      hmoved.functors, hmoved.sent⟩
  · rename_i request next hconsole
    cases hstep
    have hround := hclient.console _ hconsole
    exact (hclient.send hround.1).goOn (hround.2 () trivial)
  · rename_i next hconsole
    cases hstep
    exact hclient.goOn ((hclient.console _ hconsole).2 () trivial)
  · cases hstep

theorem Composes.flushStep (hclient : Composes client)
    (hstep : client.flushStep = some next) : Composes next := by
  unfold ChatClient.flushStep at hstep
  split at hstep
  · cases hstep
  · rename_i envelope rest hfunctors
    have hall := hclient.functors
    rw [hfunctors, List.forall_mem_cons] at hall
    cases hstep
    split
    · refine ⟨hclient.currentUid, hclient.console, hclient.composed,
        hall.2, ?_⟩
      intro other hother
      rcases List.mem_append.mp hother with hold | hnew
      · exact hclient.sent other hold
      · rw [List.mem_singleton.mp hnew]
        exact hall.1
    · exact ⟨hclient.currentUid, hclient.console, hclient.composed,
        hall.2, hclient.sent⟩

theorem Composes.step (hclient : Composes client)
    (hstep : client.step action = some next) : Composes next := by
  cases action with
  | up | shutdown =>
      cases hstep
      exact ⟨hclient.currentUid, hclient.console, hclient.composed,
        hclient.functors, hclient.sent⟩
  | down =>
      cases hstep
      exact ⟨rfl, hclient.console, hclient.composed, hclient.functors,
        hclient.sent⟩
  | console => exact hclient.consoleStep hstep
  | flush => exact hclient.flushStep hstep
  | message msg =>
      cases hstep
      cases msg with
      | loginResp resp =>
          show Composes (if resp.ok = true then
            { client with loggedIn := true } else client)
          split
          · exact ⟨hclient.currentUid, hclient.console, hclient.composed,
              hclient.functors, hclient.sent⟩
          · exact hclient
      | _ => exact hclient

theorem composes_of_run {stdin : List UInt8} {actions : List Action}
    (hrun : Runs.runFrom step { stdin := stdin } actions = some client) :
    Composes client :=
  Runs.invariant_of_run (composes_start stdin)
    (fun _ _ _ hstep hclient => hclient.step hstep) hrun

end ChatClient

/-! ## What the server makes of it -/

section Sizes

open WireFormat

theorem length_line_le {number : ℕ} (hnumber : number < 16)
    {text : List UInt8} (htext : IsLine text) :
    (bytesField number text).length ≤ 1026 := by
  have hfield := length_bytesField hnumber text
  have hdelimited : delimitedSize text.length ≤ 1023 + (1 + 1) :=
    (delimitedSize_le_iff (by decide) (by decide)).mpr htext.1
  omega

theorem uintSize_le {value : ℕ} (hvalue : value < 2 ^ 64) :
    uintSize value ≤ 11 := by
  unfold uintSize
  split
  · exact Nat.zero_le _
  · have hvarint : varintSize value ≤ 9 + 1 :=
      varintSize_le (Nat.lt_of_lt_of_le hvalue (by decide))
    omega

theorem length_payload_le {number : ℕ} (hnumber : number < 2048)
    {body : List UInt8} (hbody : body.length ≤ 2063) :
    (messageField number body).length ≤ 2067 := by
  have hkey : (key number 2).length ≤ 2 := by
    rw [key, length_varint]
    exact varintSize_le (by omega)
  have hdelimited : delimitedSize body.length ≤ 2063 + (1 + 1) :=
    (delimitedSize_le_iff (by decide) (by decide)).mpr hbody
  rw [length_messageField]
  omega

/-- Nothing the client composes is near the limit for frames. -/
theorem Composed.length_le {raw : RawEnvelope} (hcomposed : Composed raw) :
    raw.serialize.length ≤ 2067 := by
  obtain ⟨request, hproper, rfl⟩ := hcomposed
  have hnone (number : ℕ) : bytesField number [] = [] := rfl
  cases request with
  | register uid passwd | login uid passwd =>
      obtain ⟨⟨huid, _⟩, hpasswd, _⟩ := hproper
      have hone := length_line_le (show 1 < 16 by decide) huid
      have htwo := length_line_le (show 2 < 16 by decide) hpasswd
      apply length_payload_le (by decide)
      rw [List.length_append]
      omega
  | privateMsg recipient content =>
      obtain ⟨⟨hrecipient, _⟩, hcontent, _⟩ := hproper
      have hone := length_line_le (show 2 < 16 by decide) hrecipient
      have htwo := length_line_le (show 4 < 16 by decide) hcontent
      apply length_payload_le (by decide)
      simp only [hnone, List.append_nil, List.length_append]
      omega
  | roomMsg room content =>
      obtain ⟨⟨hroom, _⟩, hcontent, _⟩ := hproper
      have hone := length_line_le (show 3 < 16 by decide) hroom
      have htwo := length_line_le (show 4 < 16 by decide) hcontent
      apply length_payload_le (by decide)
      simp only [hnone, List.nil_append, List.length_append]
      omega
  | createRoom name =>
      have hone := length_line_le (show 1 < 16 by decide) hproper.1
      apply length_payload_le (by decide)
      omega
  | joinRoom room uid =>
      obtain ⟨⟨hroom, _⟩, huid, _⟩ := hproper
      have hone := length_line_le (show 1 < 16 by decide) hroom
      have htwo := length_line_le (show 2 < 16 by decide) huid
      apply length_payload_le (by decide)
      rw [List.length_append]
      omega
  | friendReq recipient message =>
      obtain ⟨⟨hrecipient, _⟩, hmessage⟩ := hproper
      have hone := length_line_le (show 2 < 16 by decide) hrecipient
      have htwo := length_line_le (show 3 < 16 by decide) hmessage
      apply length_payload_le (by decide)
      rw [List.length_append]
      omega
  | friendResp requester accept =>
      have hone := length_line_le (show 2 < 16 by decide) hproper.1
      apply length_payload_le (by decide)
      simp only [hnone, List.nil_append, List.length_append,
        length_boolField (show 3 < 16 by decide)]
      split <;> omega
  | recallMsg msgId toUid room =>
      obtain ⟨hmsgId, htoUid, hroom⟩ := hproper
      have hid := uintSize_le hmsgId
      have hone := length_line_le (show 3 < 16 by decide) hroom
      have htwo := length_line_le (show 4 < 16 by decide) htoUid
      have hfield : (uint64Field 1 msgId).length = uintSize msgId := by
        rw [uint64Field, Nat.mod_eq_of_lt hmsgId,
          length_varintField (by decide)]
      apply length_payload_le (by decide)
      simp only [List.length_append, hfield]
      omega
  | logout => exact length_payload_le (by decide) (by decide)

/-- What arrives is what protobuf writes for the parsed envelope. -/
theorem RawEnvelope.serialize_of_parse {raw : RawEnvelope}
    {envelope : Envelope} (hparse : raw.parse = some envelope) :
    raw.serialize = envelope.serialize "" := by
  have hempty (number : ℕ) : stringField number "" = [] := rfl
  have hzero (number : ℕ) : uint64Field number 0 = [] := rfl
  have hfalse (number : ℕ) : boolField number false = [] := rfl
  have hfield {bytes : List UInt8} {text : String}
      (htext : stringOf? bytes = some text) (number : ℕ) :
      stringField number text = bytesField number bytes := by
    rw [stringField, bytesOf_of_stringOf? htext]
  cases raw with
  | registerReq uid passwd | loginReq uid passwd =>
      obtain ⟨first, hfirst, hparse⟩ := Option.bind_eq_some_iff.mp hparse
      obtain ⟨second, hsecond, hparse⟩ := Option.bind_eq_some_iff.mp hparse
      cases hparse
      simp [Envelope.serialize, Envelope.serializePayload, serialize,
        LoginRequest.serialize, RegisterRequest.serialize, hempty,
        hfield hfirst, hfield hsecond]
  | chatMsg recipient room content =>
      obtain ⟨first, hfirst, hparse⟩ := Option.bind_eq_some_iff.mp hparse
      obtain ⟨second, hsecond, hparse⟩ := Option.bind_eq_some_iff.mp hparse
      obtain ⟨third, hthird, hparse⟩ := Option.bind_eq_some_iff.mp hparse
      cases hparse
      simp [Envelope.serialize, Envelope.serializePayload, serialize,
        ChatMessage.serialize, hempty, hzero, hfalse, hfield hfirst,
        hfield hsecond, hfield hthird]
  | createRoom name | logoutReq uid =>
      obtain ⟨first, hfirst, hparse⟩ := Option.bind_eq_some_iff.mp hparse
      cases hparse
      simp [Envelope.serialize, Envelope.serializePayload, serialize,
        CreateRoom.serialize, LogoutRequest.serialize, hempty,
        hfield hfirst]
  | joinRoom first second | friendReq first second
  | friendResp first second _ | recallMsg _ first second =>
      obtain ⟨first, hfirst, hparse⟩ := Option.bind_eq_some_iff.mp hparse
      obtain ⟨second, hsecond, hparse⟩ := Option.bind_eq_some_iff.mp hparse
      cases hparse
      simp [Envelope.serialize, Envelope.serializePayload, serialize,
        JoinRoom.serialize, FriendRequest.serialize,
        FriendResponse.serialize, RecallMessage.serialize, hempty,
        hfield hfirst, hfield hsecond]

end Sizes

/-- The event turns a request away. -/
def Event.Rejects : Event → Prop
  | .sent _ (.error _) | .shutdown _ => True
  | _ => False

namespace ChatServer

theorem whenAuthenticated_history (server : ChatServer) (request : ℕ)
    (conn : Conn) (task : String → Task) :
    (server.whenAuthenticated request conn task).history =
      server.history := by
  unfold whenAuthenticated
  split <;> rfl

/-- The codec hands on what can be parsed, and answers the rest itself. -/
def handleMessage (server : ChatServer) (conn : Conn) (raw : RawEnvelope) :
    ChatServer :=
  match raw.parse with
  | some envelope => server.receive conn envelope
  | none => server.sendError conn 1 "parse error"

/-- Whatever state the server is in, it turns nothing away that was composed
with the menus and can be parsed; errors come, if at all, from the tasks. -/
theorem receive_composed {raw : RawEnvelope} (hcomposed : Composed raw)
    {envelope : Envelope} (hparse : raw.parse = some envelope)
    (server : ChatServer) (conn : Conn) :
    ∃ replies, (server.receive conn envelope).history =
        replies ++ server.history ∧
      ∀ event ∈ replies, ¬ event.Rejects := by
  obtain ⟨request, hproper, rfl⟩ := hcomposed
  have hreceived (events : List Event)
      (hhistory : (server.receive conn envelope).history =
        events ++ .received server.requests conn envelope :: server.history)
      (hevents : ∀ event ∈ events, ¬ event.Rejects) :
      ∃ replies, (server.receive conn envelope).history =
          replies ++ server.history ∧
        ∀ event ∈ replies, ¬ event.Rejects := by
    refine ⟨events ++ [.received server.requests conn envelope], ?_, ?_⟩
    · rw [hhistory, List.append_assoc]
      rfl
    · intro event hevent
      rcases List.mem_append.mp hevent with hreply | hnew
      · exact hevents event hreply
      · rw [List.mem_singleton.mp hnew]
        exact id
  have hnonempty {bytes : List UInt8} {text : String}
      (htext : stringOf? bytes = some text) (hbytes : bytes ≠ []) :
      text ≠ "" := by
    rintro rfl
    exact hbytes (bytesOf_of_stringOf? htext).symm
  cases request <;>
    simp only [ClientRequest.envelope, RawEnvelope.parse, stringOf?_nil,
      Option.bind_eq_bind, Option.bind_eq_some_iff, Option.bind_some,
      Option.pure_def, Option.some.injEq] at hparse
  case register uid passwd =>
    obtain ⟨⟨_, huid⟩, _, hpasswd⟩ := hproper
    obtain ⟨first, hfirst, second, hsecond, rfl⟩ := hparse
    refine hreceived [] ?_ (by simp)
    simp [receive, onEnvelope, handleRegister, runInPool,
      hnonempty hfirst huid, hnonempty hsecond hpasswd]
  case login uid passwd =>
    obtain ⟨⟨_, huid⟩, _, hpasswd⟩ := hproper
    obtain ⟨first, hfirst, second, hsecond, rfl⟩ := hparse
    refine hreceived [] ?_ (by simp)
    simp [receive, onEnvelope, handleLogin, runInPool,
      hnonempty hfirst huid, hnonempty hsecond hpasswd]
  case logout =>
    subst hparse
    refine hreceived [.sent conn ServerReplies.logoutReply,
      .loggedOut server.requests conn] rfl ?_
    simp [Event.Rejects, ServerReplies.logoutReply]
  case createRoom name =>
    obtain ⟨first, _, rfl⟩ := hparse
    exact hreceived [] (whenAuthenticated_history (server.arrived conn _) _
      conn _) (by simp)
  case friendResp requester accept =>
    obtain ⟨first, _, rfl⟩ := hparse
    exact hreceived [] (whenAuthenticated_history (server.arrived conn _) _
      conn _) (by simp)
  all_goals
    obtain ⟨first, _, second, _, rfl⟩ := hparse
    exact hreceived [] (whenAuthenticated_history (server.arrived conn _) _
      conn _) (by simp)

end ChatServer

namespace ChatClient

/-- Whatever is typed, and whatever the server answers in between: what the
client sends fits a frame.  If it can be parsed when it arrives, which is to
say if all its strings are UTF-8, no server turns it away; otherwise every
server answers that it cannot be parsed, and does nothing else. -/
theorem requests_are_taken {stdin : List UInt8} {actions : List Action}
    {client : ChatClient}
    (hrun : Runs.runFrom step { stdin := stdin } actions = some client)
    {raw : RawEnvelope} (hsent : raw ∈ client.sent) :
    raw.serialize.length ≤ 2067 ∧
      ∀ (server : ChatServer) (conn : Conn),
        ((∀ text ∈ raw.strings, (stringOf? text).isSome) →
          ∃ replies, (server.handleMessage conn raw).history =
              replies ++ server.history ∧
            ∀ event ∈ replies, ¬ event.Rejects) ∧
        (¬ (∀ text ∈ raw.strings, (stringOf? text).isSome) →
          server.handleMessage conn raw =
            server.sendError conn 1 "parse error") := by
  have hclient := composes_of_run hrun
  have hcomposed := hclient.composed raw (hclient.sent raw hsent)
  refine ⟨hcomposed.length_le, fun server conn => ⟨?_, ?_⟩⟩
  · intro hutf8
    obtain ⟨envelope, hparse⟩ :=
      Option.isSome_iff_exists.mp (raw.isSome_parse.mpr hutf8)
    rw [ChatServer.handleMessage, hparse]
    exact ChatServer.receive_composed hcomposed hparse server conn
  · intro hutf8
    have hparse : raw.parse = none := by
      rw [← Option.not_isSome_iff_eq_none, raw.isSome_parse]
      exact hutf8
    rw [ChatServer.handleMessage, hparse]

/-- Somebody who types a uid and a password to log in with. -/
def annTypes : ChatClient :=
  { stdin := bytesOf "1\nann\nsecret\n" }

def annSends : List Action :=
  [.up, .console, .console, .console, .console, .console, .console, .flush]

theorem requests_are_taken_annTypes : ∃ client,
    Runs.runFrom step annTypes annSends = some client ∧
      .loginReq (bytesOf "ann") (bytesOf "secret") ∈ client.sent ∧
      (RawEnvelope.loginReq (bytesOf "ann")
        (bytesOf "secret")).serialize.length ≤ 2067 := by
  have hrun : ∃ client, Runs.runFrom step annTypes annSends = some client ∧
      client.sent = [.loginReq (bytesOf "ann") (bytesOf "secret")] :=
    ⟨_, rfl, rfl⟩
  obtain ⟨client, hrun, hsent⟩ := hrun
  have hmem : .loginReq (bytesOf "ann") (bytesOf "secret") ∈
      client.sent := hsent ▸ List.mem_cons_self
  exact ⟨client, hrun, hmem, (requests_are_taken hrun hmem).1⟩

end ChatClient

end MuduoChat
