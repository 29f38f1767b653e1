import ChatServer.Tables
import ChatServer.Lib.Run

/-!
# Consent and symmetry of friendship

`consent_iff` says which runs have no friendship without an accepted application, and `symmetric_iff`
which runs keep friendship symmetric. Neither holds of every run: `authFriendHandler` adds friends
without looking at what there was to accept, and `addFriend` inserts its two rows by two statements.
-/

namespace ChatServer

open Interaction Transition Prog Bytes

/-! ## A request and an acceptance -/

/-- The user 7 applies for the friendship of the user 8. -/
def applyText : Bytes :=
  lit "\x7b\"alias_name\":\"a\",\"apply_name\":\"n\",\"touid\":8,\"uid\":7\x7d"

/-- The user 8 accepts. -/
def acceptText : Bytes := lit "\x7b\"alias_name\":\"a\",\"fromuid\":7,\"touid\":8\x7d"

def friendTexts : JsonCpp :=
  .ofTable
    [(applyText, .obj [(lit "alias_name", .str (lit "a")), (lit "apply_name", .str (lit "n")),
      (lit "touid", .int 8), (lit "uid", .int 7)]),
     (acceptText, .obj [(lit "alias_name", .str (lit "a")), (lit "fromuid", .int 7),
      (lit "touid", .int 8)])]

def applies : LogicNode := .received 0 .addFriendReq applyText

def accepts : LogicNode := .received 1 .authFriendReq acceptText

/-- Every statement is executed. -/
def noFailure (_ : Sql) : Bool := false

/-- The second insertion of `addFriend` throws. -/
def secondFails : Sql → Bool
  | .insertFriend 8 7 _ => true
  | _ => false

/-- A run of one server from empty tables. -/
def friendRun (ms : List (LogicNode × (Sql → Bool))) : List ((LogicNode × List (Event sql)) × Db) :=
  Db.empty.handledAll friendTexts s1 ms

/-- The tables it leads to. -/
def friendsAfter (ms : List (LogicNode × (Sql → Bool))) : Db := final .empty (friendRun ms)

theorem friendRun_run (ms : List (LogicNode × (Sql → Bool))) :
    Run (FriendStep friendTexts) Db.empty (friendRun ms) (friendsAfter ms) := Db.handledAll_run ..

/-! ## Consent -/

section Runs

variable {J : JsonCpp} {db db' : Db} {l : LogicNode × List (Event sql)}
  {tr : List ((LogicNode × List (Event sql)) × Db)}

/-- Every friendship rests on an accepted application of one of the two friends. -/
def Db.Consent (db : Db) : Prop :=
  ∀ x y, (db.friend (x, y)).isSome → db.Accepted (x, y) ∨ db.Accepted (y, x)

/-- The application has been accepted, or the log accepts it. -/
def Agreed (db : Db) (log : List (Event sql)) (k : Int × Int) : Prop :=
  db.Accepted k ∨ ((db.friendApply k).isSome ∧ Updated log k)

/-- If the message accepts an application and a friendship is inserted for it, then an application
between the two has been accepted before, or it is there and the message accepts it. -/
def AddsAgreed (J : JsonCpp) (db : Db) (l : LogicNode × List (Event sql)) : Prop :=
  ∀ x y, l.1.Accepts J x y → Inserted l.2 (x, y) → Agreed db l.2 (x, y) ∨ Agreed db l.2 (y, x)

/-- One message keeps consent exactly if it adds friends only where there is consent. -/
theorem FriendStep.consent (h : FriendStep J db l db') (hdb : db.Consent) :
    db'.Consent ↔ AddsAgreed J db l := by
  obtain ⟨hexec, hlog | hlog⟩ := h.executes
  · have hkeep : db'.Consent := by
      intro x y hf
      rw [hexec.friend, or_iff_left (not_inserted_of_noAccept hlog)] at hf
      rw [hexec.accepted_of_noAccept hlog, hexec.accepted_of_noAccept hlog]
      exact hdb x y hf
    exact iff_of_true hkeep fun x y _ hi => absurd hi (not_inserted_of_noAccept hlog)
  · have hagreed : ∀ k, db'.Accepted k ↔ Agreed db l.2 k := fun k => (hexec.accepted hlog).2
    constructor
    · intro hdb' x y _ hi
      rw [← hagreed, ← hagreed]
      exact hdb' x y (hexec.friend.mpr (Or.inr hi))
    · intro hadds x y hf
      rw [hagreed, hagreed]
      rcases hexec.friend.mp hf with hf | hi
      · exact (hdb x y hf).imp Or.inl Or.inl
      · -- the friendship is one of the two that an acceptance inserts
        obtain ⟨u, v, hreq, hk, hfirst, -⟩ := h.paired (x, y) hi
        have hany := hadds u v hreq hfirst
        rcases hk with hk | hk <;> cases hk
        · exact hany
        · exact hany.symm

/-- **When friendships rest on consent.** From empty tables, whatever messages are handled: every
friendship rests on an accepted application throughout the run exactly if each message that accepts an
application and has a friendship inserted finds an application between the two that has been accepted,
or accepts one. -/
theorem consent_iff (h : Run (FriendStep J) Db.empty tr db) :
    Throughout (FriendStep J) Db.empty (fun _ db => db.Consent) tr ↔
      Each (FriendStep J) Db.empty (fun _ db l => AddsAgreed J db l) tr := by
  refine Run.throughout_iff_each (fun _ _ hf => nomatch hf) ?_ h
  intro tr db l db' hr hall hs
  exact hs.consent (hall tr db hr (List.prefix_refl _))

/-- Nobody has applied, and the two are friends. -/
theorem consent_fails : ¬ ∀ (J : JsonCpp) (tr : List ((LogicNode × List (Event sql)) × Db)) (db : Db),
    Run (FriendStep J) Db.empty tr db →
    Throughout (FriendStep J) Db.empty (fun _ db => db.Consent) tr := by
  intro h
  have hr := friendRun_run [(accepts, noFailure)]
  have hfriends : ((friendsAfter [(accepts, noFailure)]).friend (7, 8)).isSome = true := by
    decide +kernel
  have h78 : (friendsAfter [(accepts, noFailure)]).friendApply (7, 8) = none := by decide +kernel
  have h87 : (friendsAfter [(accepts, noFailure)]).friendApply (8, 7) = none := by decide +kernel
  rcases h _ _ _ hr _ _ hr (List.prefix_refl _) 7 8 hfriends with ⟨row, hrow, _⟩ | ⟨row, hrow, _⟩
  · rw [h78] at hrow
    cases hrow
  · rw [h87] at hrow
    cases hrow

/-- An application that is accepted. -/
theorem consent_request :
    ((friendsAfter [(applies, noFailure), (accepts, noFailure)]).friend (7, 8)).isSome = true ∧
    (Throughout (FriendStep friendTexts) Db.empty (fun _ db => db.Consent)
        (friendRun [(applies, noFailure), (accepts, noFailure)]) ↔
      Each (FriendStep friendTexts) Db.empty (fun _ db l => AddsAgreed friendTexts db l)
        (friendRun [(applies, noFailure), (accepts, noFailure)])) :=
  ⟨by decide +kernel, consent_iff (friendRun_run _)⟩

/-! ## Symmetry -/

/-- Friendship is symmetric. -/
def Db.Symmetric (db : Db) : Prop := ∀ x y, (db.friend (x, y)).isSome ↔ (db.friend (y, x)).isSome

/-- If the message accepts an application, the friendship of the applicant is inserted, and inserting
its converse throws, then the converse is in the table, or the two are one. -/
def AddsBoth (J : JsonCpp) (db : Db) (l : LogicNode × List (Event sql)) : Prop :=
  ∀ x y, l.1.Accepts J x y → Inserted l.2 (x, y) → Threw l.2 (y, x) →
    (db.friend (y, x)).isSome ∨ Inserted l.2 (y, x)

/-- One message keeps friendship symmetric exactly if no insertion throws that the other needs. -/
theorem FriendStep.symmetric (h : FriendStep J db l db') (hdb : db.Symmetric) :
    db'.Symmetric ↔ AddsBoth J db l := by
  have hexec := h.executes.1
  constructor
  · intro hdb' x y _ hi _
    exact hexec.friend.mp ((hdb' x y).mp (hexec.friend.mpr (Or.inr hi)))
  · intro hadds
    have hhalf : ∀ x y, (db'.friend (x, y)).isSome → (db'.friend (y, x)).isSome := by
      intro x y hf
      refine hexec.friend.mpr ?_
      rcases hexec.friend.mp hf with hf | hi
      · exact Or.inl ((hdb x y).mp hf)
      · obtain ⟨u, v, hreq, hk, hfirst, hsecond⟩ := h.paired (x, y) hi
        rcases hk with hk | hk <;> cases hk
        · rcases hsecond with hi' | ht
          · exact Or.inr hi'
          · exact hadds x y hreq hfirst ht
        · -- the second insertion of the two: the first has succeeded
          exact Or.inr hfirst
    exact fun x y => ⟨hhalf x y, hhalf y x⟩

/-- No friends, and any applications. -/
def Db.friendless (friendApply : Int × Int → Option ApplyRow) : Db :=
  { friendApply := friendApply, friend := fun _ => none }

/-- **When friendship is symmetric.** From an empty friend table, whatever messages are handled and
whatever statements fail: friendship is symmetric after every message of the run exactly if, for each
message, inserting the converse of an added friendship throws only where the converse is there. -/
theorem symmetric_iff {friendApply : Int × Int → Option ApplyRow}
    (h : Run (FriendStep J) (Db.friendless friendApply) tr db) :
    Throughout (FriendStep J) (Db.friendless friendApply) (fun _ db => db.Symmetric) tr ↔
      Each (FriendStep J) (Db.friendless friendApply) (fun _ db l => AddsBoth J db l) tr := by
  refine Run.throughout_iff_each (fun _ _ => Iff.rfl) ?_ h
  intro tr db l db' hr hall hs
  exact hs.symmetric (hall tr db hr (List.prefix_refl _))

/-- The first row is inserted and the second is not. -/
theorem symmetric_fails : ¬ ∀ (J : JsonCpp) (tr : List ((LogicNode × List (Event sql)) × Db))
    (friendApply : Int × Int → Option ApplyRow) (db : Db),
    Run (FriendStep J) (Db.friendless friendApply) tr db →
    Throughout (FriendStep J) (Db.friendless friendApply) (fun _ db => db.Symmetric) tr := by
  intro h
  have hr := friendRun_run [(accepts, secondFails)]
  have h78 : ((friendsAfter [(accepts, secondFails)]).friend (7, 8)).isSome = true := by
    decide +kernel
  have h87 : ((friendsAfter [(accepts, secondFails)]).friend (8, 7)).isSome = false := by
    decide +kernel
  have hsym := (h _ _ (fun _ => none) _ hr _ _ hr (List.prefix_refl _) 7 8).mp h78
  rw [h87] at hsym
  cases hsym

/-- Both rows are inserted. -/
theorem symmetric_request :
    ((friendsAfter [(applies, noFailure), (accepts, noFailure)]).friend (8, 7)).isSome = true ∧
    (Throughout (FriendStep friendTexts) Db.empty (fun _ db => db.Symmetric)
        (friendRun [(applies, noFailure), (accepts, noFailure)]) ↔
      Each (FriendStep friendTexts) Db.empty (fun _ db l => AddsBoth friendTexts db l)
        (friendRun [(applies, noFailure), (accepts, noFailure)])) :=
  ⟨by decide +kernel, symmetric_iff (friendRun_run _)⟩

end Runs

end ChatServer
