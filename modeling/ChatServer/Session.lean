import ChatServer.Calls

/-!
# Sessions: reading frames, closing

`net/CSession.cpp` and `net/CServer.cpp`: the chain of asynchronous reads that alternates between
the four header bytes and the body of a frame, and `close`. A callback of the I/O thread is an `Io`
program; what it starts (the next `async_read_some`) is a call.

`_recv_head_node` only holds a copy of the four bytes while `AsyncReadHead` decodes them, so the
model decodes them from `_data`.
-/

namespace ChatServer

open Interaction Prog Decimal Word Handler

/-! ## The login count -/

/-- The count a `HGET` answered: zero when the field is missing. -/
def readCount (rd_res : Bytes) : Except Exn Int := if rd_res = [] then .ok 0 else stoi rd_res

namespace CSession

/-! ## Closing -/

/-- The block of `close` that is guarded by `_user_uid > 0`. `_user_uid` is read again for
`RemoveUserSession`. -/
def unbind (self : ServerName) (s : SessId) (user_uid : Int) : Handler Unit :=
  if user_uid > 0 then do
    let rd_res ← ask (.hGet RedisPrefix.loginCount self.val)
    let count ← readCount rd_res
    -- the floor at zero
    let count := if count > 0 then count - 1 else count
    let _ ← ask (.hSet RedisPrefix.loginCount self.val (renderInt count))
    let user_uid ← ask (.getUserId s)
    let _ ← ask (.removeUserSession user_uid)
    ask (.setUserId s 0)
  else
    pure ()

/-- `CSession::close`. -/
def close (self : ServerName) (s : SessId) : Handler Unit := do
  let b_close ← ask (.bClose s)
  if b_close then
    pure ()
  else
    let user_uid ← ask (.getUserId s)
    unbind self s user_uid
    -- an exception of the socket leaves `_b_close` unset
    let res ← ask (.socketClose s)
    let _ ← res
    ask (.setBClose s)

/-- What the read handlers do about a connection they give up: `close(); ClearSession(...)`. -/
def drop (self : ServerName) (s : SessId) : Handler Unit := do
  close self s
  ask (.clearSession s)

/-! ## Starting a read -/

/-- `CSession::asyncReadLen`. The handler runs when the read completes (`readCallback`). -/
def asyncReadLen (s : SessId) (read_len total_len : Nat) (handler : ReadHandler) : Io Unit :=
  Io.ask (.asyncReadSome s { readLen := read_len, totalLen := total_len, handler := handler })

/-- `CSession::asyncReadFull`. -/
def asyncReadFull (s : SessId) (max_length : Nat) (handler : ReadHandler) : Io Unit := do
  let _ ← Io.ask (.clearData s)
  asyncReadLen s 0 max_length handler

/-- `CSession::AsyncReadHead`. -/
def asyncReadHead (s : SessId) : Io Unit := asyncReadFull s headTotalLen .head

/-- `CSession::AsyncReadBody`. The length is passed on as a `size_t`. -/
def asyncReadBody (s : SessId) (total_len : Int) : Io Unit :=
  asyncReadFull s (toSizeT total_len) (.body total_len)

/-- `CSession::start`. -/
def start (s : SessId) : Io Unit := asyncReadHead s

/-! ## Completing a read -/

-- Irreducible: no proof gains anything from unfolding byte arithmetic inside a handler.

/-- `msg_id` of the header at the beginning of `_data`. -/
@[irreducible]
def headMsgId (data : Bytes) : Int := networkToHostShort (data.getD 0 0) (data.getD 1 0)

/-- `msg_len` of the header at the beginning of `_data`. -/
@[irreducible]
def headMsgLen (data : Bytes) : Int := networkToHostShort (data.getD 2 0) (data.getD 3 0)

/-- One of the two checks of `AsyncReadHead` rejects the header in the buffer. -/
def Rejected (data : Bytes) : Prop := headMsgId data > maxLength ∨ headMsgLen data > maxLength

instance (data : Bytes) : Decidable (Rejected data) := instDecidableOr

/-- What `AsyncReadHead` does with a complete header. -/
def acceptHead (s : SessId) (data : Bytes) : Handler Unit :=
  -- a rejected header: the session is forgotten, neither closed nor read from again
  if headMsgId data > maxLength then
    ask (.clearSession s)
  else if headMsgLen data > maxLength then
    ask (.clearSession s)
  else do
    -- a negative length gets here as well
    let node ← RecvNode.new (headMsgLen data) (headMsgId data)
    let _ ← ask (.setRecvNode s node)
    asyncReadBody s (headMsgLen data)

/-- The handler of `AsyncReadHead`. -/
def headHandler (self : ServerName) (s : SessId) (ec : Bool) (bytes_transfered : Nat) : Io Unit :=
  catchStd <|
    if ec then
      drop self s
    else if bytes_transfered < headTotalLen then
      drop self s
    else do
      let data ← ask (.data s)
      acceptHead s data

/-- What `AsyncReadBody` does with a complete body. `AsyncReadHead` has stored a node before it
started the read of a body. -/
def acceptBody (s : SessId) (bytes_transfered : Nat) : Handler Unit := do
  let data ← ask (.data s)
  let recv_msg_node ← ask (.recvNode s)
  match recv_msg_node with
  | none => pure ()
  | some node =>
    -- the node that is posted is the one that the session keeps
    let node := node.fill (data.take bytes_transfered)
    let _ ← ask (.setRecvNode s node)
    let _ ← ask (.postMsgToQue { session := s, recvNode := node })
    asyncReadHead s

/-- The handler of `AsyncReadBody`. `total_len` is compared as a `size_t`. -/
def bodyHandler (self : ServerName) (s : SessId) (total_len : Int) (ec : Bool)
    (bytes_transfered : Nat) : Io Unit :=
  catchStd <|
    if ec then
      drop self s
    else if bytes_transfered < toSizeT total_len then
      drop self s
    else
      acceptBody s bytes_transfered

/-- Call the handler that a chain of reads was started with. -/
def handle (self : ServerName) (s : SessId) (ec : Bool) (bytes_transfered : Nat) :
    ReadHandler → Io Unit
  | .head => headHandler self s ec bytes_transfered
  | .body total_len => bodyHandler self s total_len ec bytes_transfered

/-- The callback that `asyncReadLen` gives to `async_read_some`. -/
def readCallback (self : ServerName) (s : SessId) (p : PendingRead) (ec : Bool)
    (bytes_transfered : Nat) : Io Unit :=
  if ec then
    handle self s ec (p.readLen + bytes_transfered) p.handler
  else if p.readLen + bytes_transfered ≥ p.totalLen then
    handle self s ec (p.readLen + bytes_transfered) p.handler
  else
    asyncReadLen s (p.readLen + bytes_transfered) p.totalLen p.handler

end CSession

/-! ## Accepting -/

/-- `CServer::HandleAccept` of a connection accepted without an error. -/
def handleAccept (s : SessId) : Io Unit := do
  CSession.start s
  Io.ask (.addSession s)

end ChatServer
