import ChatServer.ChatServiceImpl
import Mathlib.Logic.Function.Basic

/-!
# What the calls do

The state that the calls act on, `World`: the shared Redis and the memory of one server process.
`sem` says which answers a call can give and what it leaves behind. The database and the peers may
answer anything. With `lossy`, a Redis command may also fail: a read then finds nothing, and a write
may or may not have been carried out. `interpret` answers every call and is one of the behaviours
that `sem` allows, so programs can be run.
-/

namespace ChatServer

open Interaction Prog Bytes Word

/-! ## Redis -/

/-- The strings and the hashes in Redis. The server's string keys and its one hash have different
names, so the model keeps them apart. -/
structure Redis where
  str : Bytes → Option Bytes
  hash : Bytes → Bytes → Option Bytes

namespace Redis

def empty : Redis := { str := fun _ => none, hash := fun _ _ => none }

/-- `RedisMgr::get`. Key and value pass through C strings. -/
def get (r : Redis) (key : Bytes) : Option Bytes := (r.str (cstr key)).map cstr

/-- `RedisMgr::set`. -/
def set (r : Redis) (key value : Bytes) : Redis :=
  { r with str := Function.update r.str (cstr key) (some (cstr value)) }

/-- `RedisMgr::hGet`. -/
def hGet (r : Redis) (key hkey : Bytes) : Bytes :=
  match r.hash key hkey with
  | none => []
  | some value => cstr value

/-- `RedisMgr::hSet`. -/
def hSet (r : Redis) (key hkey value : Bytes) : Redis :=
  let fields := Function.update (r.hash (cstr key)) (cstr hkey) (some value)
  { r with hash := Function.update r.hash (cstr key) fields }

/-- The stored login count of a server. -/
def count (r : Redis) (S : ServerName) : Bytes := r.hGet RedisPrefix.loginCount S.val

/-- The stored route of a user. -/
def route (r : Redis) (uid : Int) : Option Bytes := r.get (ipKey uid)

/-- A login count that is written is the one that is read. -/
theorem count_hSet (r : Redis) (S : ServerName) {value : Bytes} (hv : (0 : UInt8) ∉ value) :
    (r.hSet RedisPrefix.loginCount S.val value).count S = value := by
  have hkey : cstr RedisPrefix.loginCount = RedisPrefix.loginCount := by decide
  unfold count hGet hSet
  dsimp only
  rw [hkey, Function.update_self, ServerName.cstr_val, Function.update_self]
  exact cstr_eq_self hv

theorem count_hSet_of_ne (r : Redis) {S T : ServerName} (hne : S ≠ T) (value : Bytes) :
    (r.hSet RedisPrefix.loginCount T.val value).count S = r.count S := by
  have hkey : cstr RedisPrefix.loginCount = RedisPrefix.loginCount := by decide
  have hval : S.val ≠ T.val := fun h => hne (Subtype.ext h)
  unfold count hGet hSet
  dsimp only
  rw [hkey, Function.update_self, ServerName.cstr_val, Function.update_of_ne hval]

/-- A route that is written is the one that is read. -/
theorem route_set (r : Redis) (S : ServerName) (uid : Int) :
    (r.set (ipKey uid) S.val).route = Function.update r.route uid (some S.val) := by
  have hkey : ∀ u, cstr (ipKey u) = ipKey u := fun u => cstr_eq_self (zero_notMem_ipKey u)
  funext u
  unfold route get set
  dsimp only
  rw [hkey, hkey]
  by_cases hu : u = uid
  · subst hu
    rw [Function.update_self, Function.update_self, Option.map_some, cstr_cstr,
      ServerName.cstr_val]
  · have hne : ipKey u ≠ ipKey uid := fun h => hu (ipKey_injective h)
    rw [Function.update_of_ne hu, Function.update_of_ne hne, hkey]

/-- Writing another string leaves the routes alone. -/
theorem route_set_of_not_prefix (r : Redis) {key : Bytes} (value : Bytes)
    (h : ¬ RedisPrefix.userIpPrefix <+: key) : (r.set key value).route = r.route := by
  funext u
  have hne : cstr (ipKey u) ≠ cstr key := by
    intro he
    rw [cstr_eq_self (zero_notMem_ipKey u)] at he
    exact h ((userIpPrefix_prefix_ipKey u).trans (he ▸ cstr_prefix key))
  unfold route get set
  dsimp only
  rw [Function.update_of_ne hne]

end Redis

/-! ## Sessions -/

/-- `CSession`. `reads` are the outstanding reads, `writes` the nodes whose `async_write` is
outstanding. -/
structure Sess where
  bClose : Bool := false
  userUid : Int := 0
  socketOpen : Bool := true
  data : Bytes := List.replicate maxLength 0
  recvMsgNode : Option RecvNode := none
  reads : List PendingRead := []
  sendQue : List SendNode := []
  writes : List SendNode := []

namespace Sess

/-- `CSession::send(const char *, short, short)`. The two overloads of the source hand the body on
as a pointer and a `short` length, which here is the body itself. -/
def sendBody (s : Sess) (msg : Bytes) (msg_id : Int) : Sess :=
  if s.sendQue.length ≥ maxSendQue then s
  else if toShort msg.length ≤ 0 ∨ toShort msg.length > maxLength then s
  else
    match SendNode.new msg msg_id with
    | .error _ => s
    | .ok node =>
      let sendQue := s.sendQue ++ [node]
      if sendQue.length > 1 then { s with sendQue := sendQue }
      else { s with sendQue := sendQue, writes := s.writes ++ sendQue.take 1 }

/-- `CSession::send(std::string, short)`. -/
def send (s : Sess) (msg : Bytes) (msgid : Int) : Sess :=
  if msg.length > 32767 then s else s.sendBody msg msgid

/-- `CSession::handleWrite`. -/
def handleWrite (s : Sess) (ec : Bool) : Sess :=
  if ec then s
  else
    let sendQue := s.sendQue.tail
    { s with sendQue := sendQue, writes := s.writes ++ sendQue.take 1 }

/-- Sending changes nothing but the outgoing nodes. -/
theorem send_eq (s : Sess) (msg : Bytes) (msgid : Int) :
    ∃ que writes, s.send msg msgid = { s with sendQue := que, writes := writes } := by
  have hsame : ∃ que writes, s = { s with sendQue := que, writes := writes } :=
    ⟨s.sendQue, s.writes, rfl⟩
  unfold send sendBody
  split
  · exact hsame
  · split
    · exact hsame
    · split
      · exact hsame
      · split
        · exact hsame
        · dsimp only
          split
          · exact ⟨_, s.writes, rfl⟩
          · exact ⟨_, _, rfl⟩

/-- So does a completed write. -/
theorem handleWrite_eq (s : Sess) (ec : Bool) :
    ∃ que writes, { s with writes := s.writes.tail }.handleWrite ec =
      { s with sendQue := que, writes := writes } := by
  unfold handleWrite
  split
  · exact ⟨s.sendQue, _, rfl⟩
  · exact ⟨_, _, rfl⟩

end Sess

/-! ## A server process -/

/-- The memory of a server: the sessions accepted so far, `CServer::_sessions`,
`UserMgr::_uid_to_session` and `LogicSystem::_msg_que`. -/
structure Proc where
  known : List SessId
  sess : SessId → Sess
  sessions : List SessId
  uidToSession : Int → Option SessId
  msgQue : List LogicNode

namespace Proc

/-- A server that has just started. -/
def init : Proc :=
  { known := [], sess := fun _ => {}, sessions := [], uidToSession := fun _ => none, msgQue := [] }

/-- Change one session. -/
def modify (p : Proc) (s : SessId) (f : Sess → Sess) : Proc :=
  { p with sess := Function.update p.sess s (f (p.sess s)) }

end Proc

structure World where
  redis : Redis
  proc : Proc

namespace World

/-- An empty Redis and a server that has just started. -/
def init : World := { redis := .empty, proc := .init }

/-- Change one session. -/
def modify (w : World) (s : SessId) (f : Sess → Sess) : World :=
  { w with proc := w.proc.modify s f }

@[simp] theorem modify_sess (w : World) (s : SessId) (f : Sess → Sess) :
    (w.modify s f).proc.sess s = f (w.proc.sess s) := Function.update_self ..

theorem modify_sess_ne {s t : SessId} (h : t ≠ s) (w : World) (f : Sess → Sess) :
    (w.modify s f).proc.sess t = w.proc.sess t := Function.update_of_ne h ..

@[simp] theorem modify_modify (w : World) (s : SessId) (f g : Sess → Sess) :
    (w.modify s f).modify s g = w.modify s fun x => g (f x) := by
  simp [modify, Proc.modify]

@[simp] theorem modify_redis (w : World) (s : SessId) (f : Sess → Sess) :
    (w.modify s f).redis = w.redis := rfl

@[simp] theorem modify_msgQue (w : World) (s : SessId) (f : Sess → Sess) :
    (w.modify s f).proc.msgQue = w.proc.msgQue := rfl

/-! ## Calls -/

/-- What a call leaves behind when it is carried out. A socket is closed even when closing it
reports an error. -/
def apply (w : World) : Call → World
  | .set key value => { w with redis := w.redis.set key value }
  | .hSet key hkey value => { w with redis := w.redis.hSet key hkey value }
  | .setUserSession uid s =>
    { w with proc :=
      { w.proc with uidToSession := Function.update w.proc.uidToSession uid (some s) } }
  | .removeUserSession uid =>
    { w with proc := { w.proc with uidToSession := Function.update w.proc.uidToSession uid none } }
  | .setBClose s => w.modify s fun x => { x with bClose := true }
  | .setUserId s uid => w.modify s fun x => { x with userUid := uid }
  | .socketClose s => w.modify s fun x => { x with socketOpen := false }
  | .send s msg msgid => w.modify s fun x => x.send msg msgid
  | .clearData s => w.modify s fun x => { x with data := List.replicate maxLength 0 }
  | .setRecvNode s node => w.modify s fun x => { x with recvMsgNode := some node }
  | .asyncReadSome s read => w.modify s fun x => { x with reads := x.reads ++ [read] }
  | .postMsgToQue msg => { w with proc := { w.proc with msgQue := w.proc.msgQue ++ [msg] } }
  | .addSession s => { w with proc := { w.proc with sessions := s :: w.proc.sessions } }
  | .clearSession s =>
    { w with proc := { w.proc with sessions := w.proc.sessions.filter (· ≠ s) } }
  | _ => w

/-- The answer of a call that the state determines. -/
def answer (w : World) : (c : Call) → Option c.Resp
  | .get key => some (w.redis.get key)
  | .set _ _ => some true
  | .hGet key hkey => some (w.redis.hGet key hkey)
  | .hSet _ _ _ => some true
  | .getSession uid => some (w.proc.uidToSession uid)
  | .bClose s => some (w.proc.sess s).bClose
  | .getUserId s => some (w.proc.sess s).userUid
  | .data s => some (w.proc.sess s).data
  | .recvNode s => some (w.proc.sess s).recvMsgNode
  | _ => none

/-- A failed Redis command, as its wrapper reports it. -/
def Failed : Event calls → Prop
  | ⟨.get _, r⟩ => r = none
  | ⟨.set _ _, r⟩ => r = false
  | ⟨.hGet _ _, r⟩ => r = []
  | ⟨.hSet _ _ _, r⟩ => r = false
  | _ => False

/-- The behaviour of the calls. -/
def sem (lossy : Bool) (e : Event calls) (w w' : World) : Prop :=
  (w' = w.apply e.1 ∧ ∀ r, w.answer e.1 = some r → e.2 = r) ∨
    (lossy = true ∧ Failed e ∧ (w' = w ∨ w' = w.apply e.1))

/-- Answers of a database that holds nothing and of peers that set nothing. -/
def noAnswer : (c : Call) → c.Resp
  | .get _ => none
  | .set _ _ => false
  | .hGet _ _ => []
  | .hSet _ _ _ => false
  | .getUserInfo _ => none
  | .getUserInfoByName _ => none
  | .addFriendApply _ _ _ => false
  | .getFriendAlias _ _ => (false, [])
  | .getFriendApplyAlias _ _ => (false, [])
  | .getApplyList _ _ _ => (false, [])
  | .authFriendApply _ _ => false
  | .addFriend _ _ _ _ => false
  | .getFriendList _ => (false, [])
  | .getSession _ => none
  | .setUserSession _ _ => ()
  | .removeUserSession _ => ()
  | .bClose _ => false
  | .setBClose _ => ()
  | .getUserId _ => 0
  | .setUserId _ _ => ()
  | .socketClose _ => .ok ()
  | .send _ _ _ => ()
  | .data _ => []
  | .clearData _ => ()
  | .recvNode _ => none
  | .setRecvNode _ _ => ()
  | .asyncReadSome _ _ => ()
  | .postMsgToQue _ => ()
  | .addSession _ => ()
  | .clearSession _ => ()
  | .notifyAddFriend _ _ => {}
  | .notifyAuthFriend _ _ => {}
  | .notifyTextChatMsg _ _ => {}

/-- Answer a call and carry it out; `ext` answers what is outside the server and Redis. -/
def interpret (ext : (c : Call) → c.Resp) (c : Call) (w : World) : c.Resp × World :=
  ((w.answer c).getD (ext c), w.apply c)

theorem sem_interpret (lossy : Bool) (ext : (c : Call) → c.Resp) (c : Call) (w : World) :
    sem lossy ⟨c, (interpret ext c w).1⟩ w (interpret ext c w).2 := by
  refine Or.inl ⟨rfl, fun r hr => ?_⟩
  show (w.answer c).getD (ext c) = r
  rw [hr, Option.getD_some]

/-- A command that did not fail was answered from the state and carried out. -/
theorem sem_of_not_failed {lossy : Bool} {e : Event calls} {w w' : World} (h : sem lossy e w w')
    (hf : ¬ Failed e) : w' = w.apply e.1 ∧ ∀ r, w.answer e.1 = some r → e.2 = r := by
  rcases h with h | ⟨-, h, -⟩
  · exact h
  · exact absurd h hf

end World

end ChatServer
