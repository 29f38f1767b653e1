import ChatServer.Addressees
import ChatServer.ConfigMgr

/-!
# Which server a call to a peer reaches

The constructor of `ChatGrpcClient` makes a pool of stubs for every section that `PeerServer.Servers` lists,
under the name that the section gives, and a wrapper looks the name that Redis has for a user up in these
pools. A `Deployment` is a set of servers whose configurations list each other. In every run of one, each call
of a worker to a peer finds its pool, and the pool leads to the server that Redis has named
(`peers_reached`).
-/

namespace ChatServer

open Interaction Transition Prog Handler Bytes LogicSystem

/-! ## The pools -/

/-- `ChatConPool` as its constructor leaves it: each of its stubs has a channel to the target. -/
structure ChatConPool where
  poolSize : Nat
  host : Bytes
  port : Bytes
  deriving DecidableEq, Repr

/-- The target of the channels. -/
def ChatConPool.target (pool : ChatConPool) : Bytes := pool.host ++ lit ":" ++ pool.port

namespace ChatGrpcClient

def comma : UInt8 := 44

/-- The pool that the constructor makes for a section. -/
def poolFor (cfg : ConfigMgr) (word : Bytes) : ChatConPool :=
  { poolSize := 5, host := cfg.value word "Host", port := cfg.value word "Port" }

/-- One turn of the loop over the words. -/
def addPool (cfg : ConfigMgr) (pools : Bytes → Option ChatConPool) (word : Bytes) :
    Bytes → Option ChatConPool :=
  if cfg.value word "Name" = [] then pools
  else Function.update pools (cfg.value word "Name") (some (poolFor cfg word))

/-- The words of the list of peers. -/
def words (cfg : ConfigMgr) : List Bytes :=
  Fields.fields comma (cfg.value (lit "PeerServer") "Servers")

/-- `ChatGrpcClient::_pools`, as the constructor fills it. -/
def pools (cfg : ConfigMgr) : Bytes → Option ChatConPool := (words cfg).foldl (addPool cfg) fun _ => none

/-- The last of the words whose section has the name decides. -/
theorem foldl_addPool (cfg : ConfigMgr) {name : Bytes} (hname : name ≠ []) (ws : List Bytes)
    (start : Bytes → Option ChatConPool) : ws.foldl (addPool cfg) start name =
      ((ws.reverse.find? fun w => cfg.value w "Name" = name).map (poolFor cfg)).or (start name) := by
  induction ws generalizing start with
  | nil => rfl
  | cons w ws ih =>
    rw [List.foldl_cons, ih, List.reverse_cons, List.find?_append]
    unfold addPool
    by_cases hw : cfg.value w "Name" = name
    · subst hw
      rw [if_neg hname, Function.update_self]
      rcases (ws.reverse.find? fun v => cfg.value v "Name" = cfg.value w "Name") with _ | v <;> simp
    · have hsame : (if cfg.value w "Name" = [] then start
          else Function.update start (cfg.value w "Name") (some (poolFor cfg w))) name = start name := by
        split_ifs
        · rfl
        · exact Function.update_of_ne (Ne.symm hw) ..
      rw [hsame]
      rcases (ws.reverse.find? fun v => cfg.value v "Name" = name) with _ | v <;> simp [hw]

theorem pools_eq (cfg : ConfigMgr) {name : Bytes} (hname : name ≠ []) : pools cfg name =
    ((words cfg).reverse.find? fun w => cfg.value w "Name" = name).map (poolFor cfg) := by
  unfold pools
  rw [foldl_addPool cfg hname, Option.or_none]

end ChatGrpcClient

/-! ## Deployments -/

/-- Servers that know each other: where each can be reached, and its configuration file, which lists a
section for every other server, with its name and address. -/
structure Deployment (J : JsonCpp) where
  servers : List ServerName
  address : ServerName → Bytes
  file : ServerName → Option Bytes
  /-- The sections that `PeerServer.Servers` lists. -/
  peers : ServerName → List Bytes
  reads : ∀ S ∈ servers, ConfigMgr.Configuration (ConfigMgr.content J (file S))
  named : ∀ S ∈ servers, S.val ≠ [] ∧
    ConfigMgr.setting J (ConfigMgr.content J (file S)) (lit "SelfServer") (lit "Name") = S.val
  listed : ∀ S ∈ servers, ConfigMgr.setting J (ConfigMgr.content J (file S)) (lit "PeerServer")
    (lit "Servers") = [ChatGrpcClient.comma].intercalate (peers S)
  plain : ∀ S ∈ servers, ∀ w ∈ peers S, ChatGrpcClient.comma ∉ w ∧ w ≠ []
  complete : ∀ S ∈ servers, ∀ T ∈ servers, T ≠ S → ∃ w ∈ peers S,
    ConfigMgr.setting J (ConfigMgr.content J (file S)) w (lit "Name") = T.val
  agrees : ∀ S ∈ servers, ∀ T ∈ servers, ∀ w ∈ peers S,
    ConfigMgr.setting J (ConfigMgr.content J (file S)) w (lit "Name") = T.val →
    ConfigMgr.setting J (ConfigMgr.content J (file S)) w (lit "Host") ++ lit ":" ++
      ConfigMgr.setting J (ConfigMgr.content J (file S)) w (lit "Port") = address T

/-- **Every server knows every other**, after its constructors have read its file. -/
theorem Deployment.knows {J : JsonCpp} (D : Deployment J) {S T : ServerName} (hS : S ∈ D.servers)
    (hT : T ∈ D.servers) (hne : T ≠ S) : ∃ cfg, ConfigMgr.load J (D.file S) = .ok cfg ∧
      ∃ pool, ChatGrpcClient.pools cfg T.val = some pool ∧ pool.target = D.address T := by
  obtain ⟨hload, hsettings⟩ := ConfigMgr.reads J (D.file S)
  obtain ⟨cfg, hcfg⟩ := hload.mpr (D.reads S hS)
  have hvalue : ∀ sect key, cfg.value sect key =
      ConfigMgr.setting J (ConfigMgr.content J (D.file S)) sect (lit key) :=
    fun sect key => hsettings cfg hcfg sect (lit key)
  have hwords : ChatGrpcClient.words cfg = D.peers S := by
    unfold ChatGrpcClient.words
    rw [hvalue, D.listed S hS, Fields.fields_intercalate (D.plain S hS)]
  refine ⟨cfg, hcfg, ?_⟩
  rw [ChatGrpcClient.pools_eq cfg (D.named T hT).1, hwords]
  obtain ⟨w, hw, hname⟩ := D.complete S hS T hT hne
  rcases hfind : (D.peers S).reverse.find? (fun w => cfg.value w "Name" = T.val) with _ | v
  · -- the section that names the server is found
    have := List.find?_eq_none.mp hfind w (List.mem_reverse.mpr hw)
    rw [hvalue] at this
    simp [hname] at this
  · have hv : cfg.value v "Name" = T.val := by simpa using List.find?_some hfind
    have hmem := List.mem_reverse.mp (List.mem_of_find?_eq_some hfind)
    refine ⟨_, rfl, ?_⟩
    rw [hvalue] at hv
    rw [← D.agrees S hS T hT v hmem hv]
    simp only [ChatConPool.target, ChatGrpcClient.poolFor, hvalue]

/-! ## Runs -/

section Runs

variable {J : JsonCpp} {redis : Redis} {S : ServerName} {tr : List (Cluster.Act × Cluster)}
  {c c' : Cluster}

/-- Only servers of the list take steps. -/
def StepsOf (servers : List ServerName) (tr : List (Cluster.Act × Cluster)) : Prop :=
  ∀ x ∈ tr, ∀ T l, x.1 = some (T, l) → T ∈ servers

/-- Every route names a server of the list. -/
def RoutesTo (servers : List ServerName) (redis : Redis) : Prop :=
  ∀ u ip, redis.route u = some ip → ∃ T ∈ servers, ip = T.val

/-- **Routes name servers of the deployment**, from step to step. -/
theorem routesTo_of_run {servers : List ServerName} (h0 : RoutesTo servers redis)
    (h : Run (Cluster.Step J) (.init redis) tr c) (hsteps : StepsOf servers tr) :
    RoutesTo servers c.redis := by
  induction h with
  | nil => exact h0
  | @snoc tr c c' a hr hs ih =>
    have hi := ih fun x hx => hsteps x (List.mem_append_left _ hx)
    intro u ip hroute
    cases hs with
    | others _ hsame => exact hi u ip ((hsame u).symm.trans hroute)
    | @server T l r v _ hs =>
      have hT : T ∈ servers := hsteps _ (List.mem_append_right _ (List.mem_singleton.mpr rfl)) T l rfl
      -- the route is a server's name, as it was read through a C string
      have hnul : (0 : UInt8) ∉ ip := by
        obtain ⟨value, -, rfl⟩ := Option.map_eq_some_iff.mp hroute
        exact zero_notMem_cstr value
      by_cases hmem : (⟨ip, hnul⟩ : ServerName) ∈ servers
      · exact ⟨_, hmem, rfl⟩
      · have hne : (⟨ip, hnul⟩ : ServerName) ≠ T := fun he => hmem (he ▸ hT)
        exact hi u ip ((hs.foreign (Traced.of_run hr T).formed hne).2 u hroute)

/-- **Every call to a peer reaches the server that Redis has named.** In every run of the servers of a
deployment, from a Redis whose routes name servers of the deployment: when the worker of a server asks a peer,
the name is that of another server of the deployment, Redis had it as the route of the user of the request,
and the server has a pool for it, whose stubs lead to that server. -/
theorem peers_reached (D : Deployment J) (h0 : RoutesTo D.servers redis)
    (h : Run (Cluster.Step J) (.init redis) tr c) (hsteps : StepsOf D.servers tr) (hS : S ∈ D.servers)
    {e : Event calls} (hs : Cluster.Step J c (some (S, .worker e)) c') {server_ip : Bytes}
    {request : ChatServiceImpl.Request} (he : e.1.requests = some (server_ip, request)) :
    ∃ T ∈ D.servers, T ≠ S ∧ server_ip = T.val ∧
      (∃ pre c₁, Run (Cluster.Step J) (.init redis) pre c₁ ∧ pre <+: tr ∧
        c₁.redis.route request.touid = some T.val) ∧
      ∃ cfg, ConfigMgr.load J (D.file S) = .ok cfg ∧
        ∃ pool, ChatGrpcClient.pools cfg server_ip = some pool ∧ pool.target = D.address T := by
  have hdirected := directed_of_run h S
  have htraced := Traced.of_run h S
  rcases hs with ⟨-, hv⟩
  rcases hv with _ | _ | _ | _ | _ | _ | ⟨ht, hstep, -⟩
  obtain ⟨hne, hget, -⟩ := ((hdirected.worker _ ht).1.step hstep).1.requests _ _ he
  obtain ⟨pre, c₁, c₂, _, hr, hp, hcall, -⟩ := (htraced.worker _ ht).2 _ hget
  have hroute : c₁.redis.route request.touid = some server_ip := by
    rcases hcall with ⟨-, hcall⟩
    rcases hcall with _ | _ | _ | _ | _ | _ | ⟨-, -, hsem⟩
    exact get_sem hsem
  have hpre : pre <+: tr := (List.prefix_append _ _).trans hp
  obtain ⟨T, hT, rfl⟩ := routesTo_of_run h0 hr (fun x hx => hsteps x (hpre.subset hx)) _ _ hroute
  have hTS : T ≠ S := fun he => hne (by rw [he])
  exact ⟨T, hT, hTS, rfl, ⟨pre, c₁, hr, hpre, hroute⟩, D.knows hS hT hTS⟩

/-! ## Two servers -/

/-- The configuration of a server that knows one other. -/
def configJson (self peer : ServerName) (port : Int) : Json :=
  .obj [(lit "PeerServer", .obj [(lit "Servers", .str (lit "peer"))]),
    (lit "SelfServer", .obj [(lit "Name", .str self.val)]),
    (lit "peer", .obj [(lit "Host", .str (lit "127.0.0.1")), (lit "Name", .str peer.val),
      (lit "Port", .int port)])]

/-- The texts of `chatTexts`, and the configurations of two servers. -/
def deployedTexts : JsonCpp := .ofTable
  [(loginText 7, .obj [(lit "token", .str (lit "t")), (lit "uid", .int 7)]),
    (chatText, .obj [(lit "fromuid", .int 8), (lit "text_array", .arr
      [.obj [(lit "content", .str (lit "hi")), (lit "msgid", .str (lit "1"))]]), (lit "touid", .int 7)]),
    (lit "1", configJson s1 s2 50056), (lit "2", configJson s2 s1 50055)]

/-- Two servers that know each other. -/
def twoServers : Deployment deployedTexts where
  servers := [s1, s2]
  address S := if S = s1 then lit "127.0.0.1:50055" else lit "127.0.0.1:50056"
  file S := if S = s1 then some (lit "1") else some (lit "2")
  peers _ := [lit "peer"]
  reads := by
    intro S hS
    have hcheck : ∀ S ∈ [s1, s2], ConfigMgr.check (ConfigMgr.content deployedTexts
        (if S = s1 then some (lit "1") else some (lit "2"))) = true := by decide +kernel
    exact ConfigMgr.configuration_of_check (hcheck S hS)
  named := by decide +kernel
  listed := by decide +kernel
  plain := by decide +kernel
  complete := by decide +kernel
  agrees := by decide +kernel

/-- The Redis of the examples has no routes at all. -/
theorem startRedis_routes (servers : List ServerName) : RoutesTo servers startRedis := by
  intro u ip hroute
  have htoken : ∀ v, ¬ RedisPrefix.userIpPrefix <+: tokenKey v := by
    intro v h
    have hprefix : RedisPrefix.userIpPrefix.isPrefixOf (tokenKey v) = true :=
      List.isPrefixOf_iff_prefix.mpr h
    exact Bool.noConfusion ((show false = _ from rfl).trans hprefix)
  unfold startRedis at hroute
  rw [Redis.route_set_of_not_prefix _ _ (htoken 8), Redis.route_set_of_not_prefix _ _ (htoken 7)] at hroute
  cases hroute

/-- The server `s2` asks `s1`, which its pool for `s1` leads to. -/
theorem peers_reached_text : ∃ tr c c' S e, Run (Cluster.Step deployedTexts) (.init startRedis) tr c ∧
    Cluster.Step deployedTexts c (some (S, .worker e)) c' ∧
    e.1.requests = some (s1.val, .textChatMsg ⟨8, 7, [⟨lit "1", lit "hi"⟩]⟩) ∧
    ∃ cfg pool, ConfigMgr.load deployedTexts (twoServers.file S) = .ok cfg ∧
      ChatGrpcClient.pools cfg s1.val = some pool ∧ pool.target = lit "127.0.0.1:50055" := by
  let steps := Cluster.schedule deployedTexts knowsUsers (.init startRedis) chats
  have hasked : (s1.val, ChatServiceImpl.Request.textChatMsg ⟨8, 7, [⟨lit "1", lit "hi"⟩]⟩) ∈
      watched peerCall steps := by decide +kernel
  have hown : ∀ x ∈ steps, x.1.all fun y => decide (y.1 ∈ [s1, s2]) := by decide +kernel
  have hsteps : StepsOf twoServers.servers steps := by
    intro x hx T l hl
    have := hown x hx
    rw [hl] at this
    exact of_decide_eq_true this
  obtain ⟨tr, c, S, e, c', hr, hp, hs, he⟩ :=
    asked_of_watched (Cluster.schedule_run deployedTexts knowsUsers _ chats) hasked
  have hS : S ∈ twoServers.servers :=
    hsteps _ (hp.subset (List.mem_append_right _ (List.mem_singleton.mpr rfl))) S _ rfl
  have hbefore : StepsOf twoServers.servers tr :=
    fun x hx => hsteps x (((List.prefix_append _ _).trans hp).subset hx)
  obtain ⟨T, hT, -, hname, -, cfg, hcfg, pool, hpool, htarget⟩ :=
    peers_reached twoServers (startRedis_routes _) hr hbefore hS hs he
  obtain rfl : s1 = T := Subtype.ext hname
  exact ⟨tr, c, c', S, e, hr, hs, he, cfg, pool, hcfg, hpool, htarget⟩

end Runs

end ChatServer
