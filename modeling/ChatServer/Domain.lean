import ChatServer.Lib.Word

/-!
# Constants and records of the server

`domain/const.h`, `domain/data.h`, the messages of `proto/message.proto` that the chat service uses,
the server's own configuration, and the exceptions that its code can raise.
-/

namespace ChatServer

open Bytes Decimal Word

/-! ## Constants -/

/-- `ErrorCodes`. -/
inductive ErrorCodes where
  | success | errorJson | rpcFailed | verifyExpired | verifyCodeError | userExist | passwdError
  | emailNotMatch | passwdUpFailed | passwdInvalid | passwdNotMatch | uidInvalid | tokenInvalid
  deriving DecidableEq, Repr

def ErrorCodes.code : ErrorCodes → Int
  | .success => 0
  | .errorJson => 1001
  | .rpcFailed => 1002
  | .verifyExpired => 1003
  | .verifyCodeError => 1004
  | .userExist => 1005
  | .passwdError => 1006
  | .emailNotMatch => 1007
  | .passwdUpFailed => 1008
  | .passwdInvalid => 1009
  | .passwdNotMatch => 1010
  | .uidInvalid => 1011
  | .tokenInvalid => 1012

/-- `MSG_IDS`. -/
inductive MsgIds where
  | chatLogin | chatLoginRsp | searchUserReq | searchUserRsp | addFriendReq | addFriendRsp
  | notifyAddFriendReq | authFriendReq | authFriendRsp | notifyAuthFriendReq | textChatMsgReq
  | textChatMsgRsp | notifyTextChatMsgReq
  deriving DecidableEq, Repr

def MsgIds.id : MsgIds → Int
  | .chatLogin => 2001
  | .chatLoginRsp => 2002
  | .searchUserReq => 2003
  | .searchUserRsp => 2004
  | .addFriendReq => 2005
  | .addFriendRsp => 2006
  | .notifyAddFriendReq => 2007
  | .authFriendReq => 2008
  | .authFriendRsp => 2009
  | .notifyAuthFriendReq => 2010
  | .textChatMsgReq => 2011
  | .textChatMsgRsp => 2012
  | .notifyTextChatMsgReq => 2013

/-- `MAX_LENGTH`: the size of a session's receive buffer, and the bound on both header fields. -/
abbrev maxLength : Nat := 2048

/-- `HEAD_TOTAL_LEN`. -/
abbrev headTotalLen : Nat := 4

/-- `MAX_SENDQUE`. -/
abbrev maxSendQue : Nat := 1000

namespace RedisPrefix

def userIpPrefix : Bytes := lit "uip_"
def userTokenPrefix : Bytes := lit "utoken_"
def userBaseInfo : Bytes := lit "ubaseinfo_"
def userNameInfo : Bytes := lit "unameinfo_"
def loginCount : Bytes := lit "logincount"

end RedisPrefix

/-- The routing key of a user, `uip_<uid>`. -/
def ipKey (uid : Int) : Bytes := RedisPrefix.userIpPrefix ++ renderInt uid

/-- The token key of a user, `utoken_<uid>`. -/
def tokenKey (uid : Int) : Bytes := RedisPrefix.userTokenPrefix ++ renderInt uid

/-- The profile key of a user, `ubaseinfo_<uid>`. -/
def baseKey (uid : Int) : Bytes := RedisPrefix.userBaseInfo ++ renderInt uid

theorem ipKey_injective : Function.Injective ipKey := by
  intro u v h
  exact renderInt_injective (List.append_cancel_left h)

@[simp] theorem ipKey_inj {u v : Int} : ipKey u = ipKey v ↔ u = v := ipKey_injective.eq_iff

theorem userIpPrefix_prefix_ipKey (u : Int) : RedisPrefix.userIpPrefix <+: ipKey u :=
  List.prefix_append _ _

theorem zero_notMem_ipKey (u : Int) : (0 : UInt8) ∉ ipKey u := by
  have hp : (0 : UInt8) ∉ RedisPrefix.userIpPrefix := by decide
  simp only [ipKey, List.mem_append, not_or]
  exact ⟨hp, zero_notMem_renderInt u⟩

/-! ## Exceptions -/

/-- The exceptions that the modelled code can raise. -/
inductive Exn where
  /-- `std::invalid_argument`, from `std::stoi`. -/
  | invalidArgument
  /-- `std::out_of_range`, from `std::stoi`. -/
  | outOfRange
  /-- `Json::LogicError`, from an accessor of `Json::Value`. -/
  | logicError
  /-- `std::bad_array_new_length`, from a new-expression with a negative size. -/
  | badArrayNewLength
  /-- `boost::system::system_error`, from closing a socket. -/
  | systemError
  deriving DecidableEq, Repr

/-- `std::stoi`. -/
def stoi (s : Bytes) : Except Exn Int :=
  match parseInt s with
  | none => .error .invalidArgument
  | some i => if IsInt i then .ok i else .error .outOfRange

theorem stoi_renderInt {i : Int} (h : IsInt i) : stoi (renderInt i) = .ok i := by
  simp [stoi, h]

/-! ## Records -/

/-- `UserInfo`. -/
structure UserInfo where
  name : Bytes := []
  pwd : Bytes := []
  uid : Int := 0
  email : Bytes := []
  nick : Bytes := []
  desc : Bytes := []
  sex : Int := 0
  icon : Bytes := []
  back : Bytes := []
  aliasName : Bytes := []
  deriving DecidableEq, Repr

/-- `ApplyInfo`. -/
structure ApplyInfo where
  uid : Int
  name : Bytes
  desc : Bytes
  icon : Bytes
  nick : Bytes
  sex : Int
  status : Int
  aliasName : Bytes := []
  deriving DecidableEq, Repr

/-! ## Messages of the chat service -/

/-- `message.AddFriendReq`. -/
structure AddFriendReq where
  applyuid : Int := 0
  name : Bytes := []
  desc : Bytes := []
  touid : Int := 0
  icon : Bytes := []
  sex : Int := 0
  nick : Bytes := []
  aliasName : Bytes := []
  deriving DecidableEq, Repr

/-- `message.AddFriendRsp`. -/
structure AddFriendRsp where
  error : Int := 0
  applyuid : Int := 0
  touid : Int := 0
  deriving DecidableEq, Repr

/-- `message.AuthFriendReq`. -/
structure AuthFriendReq where
  fromuid : Int := 0
  touid : Int := 0
  deriving DecidableEq, Repr

/-- `message.AuthFriendRsp`. -/
structure AuthFriendRsp where
  error : Int := 0
  fromuid : Int := 0
  touid : Int := 0
  deriving DecidableEq, Repr

/-- `message.TextChatData`. -/
structure TextChatData where
  msgid : Bytes := []
  msgcontent : Bytes := []
  deriving DecidableEq, Repr

/-- `message.TextChatMsgReq`. -/
structure TextChatMsgReq where
  fromuid : Int := 0
  touid : Int := 0
  textmsgs : List TextChatData := []
  deriving DecidableEq, Repr

/-- `message.TextChatMsgRsp`. -/
structure TextChatMsgRsp where
  error : Int := 0
  fromuid : Int := 0
  touid : Int := 0
  textmsgs : List TextChatData := []
  deriving DecidableEq, Repr

/-! ## Configuration -/

/-- A server's name, `SelfServer.Name` of its `config.json`: a text without NUL bytes. Servers are
told apart by their names. -/
abbrev ServerName : Type := { n : Bytes // 0 ∉ n }

@[simp] theorem ServerName.cstr_val (S : ServerName) : cstr S.val = S.val := cstr_eq_self S.property

/-- A server's name for examples. -/
def s1 : ServerName := ⟨lit "s1", by decide⟩

end ChatServer
