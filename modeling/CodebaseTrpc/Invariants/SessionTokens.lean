import CodebaseTrpc.Invariants.Ledger
import CodebaseTrpc.Properties.SingleUse

/-! Who is told the refresh token that a row stores: a request that writes it answers with it. -/
namespace CodebaseTrpc
variable {P : Packages} {w w' : World} {request : Request} {reply : Except Err Reply}

/-- A row before and after a request with this reply. -/
structure Granted (P : Packages) (w : World) (reply : Except Err Reply) (u u' : User) : Prop where
  id : u'.id = u.id
  refreshToken : u'.refreshToken = u.refreshToken ∨
    (reply = .ok (.tokens (sessionTokens P u.id w.env.now)) ∧
      u'.refreshToken = some (P.jwt.sign (refreshPayload u.id w.env.now)))

theorem Granted.refl (u : User) : Granted P w reply u u := ⟨rfl, .inl rfl⟩

theorem Granted.trans {u v x : User} (h : Granted P w reply u v) (h' : Granted P w reply v x) :
    Granted P w reply u x := by
  refine ⟨h'.id.trans h.id, ?_⟩
  rcases h'.refreshToken with ht | ⟨hreply, ht⟩
  · rw [ht]
    exact h.refreshToken
  · rw [h.id] at hreply ht
    exact .inr ⟨hreply, ht⟩

/-- Where no session starts, the stored token stays. -/
theorem Served.granted {u u' : User} (h : Served P w request u u')
    (hreq : ¬ request.OpensSession) : Granted P w reply u u' := by
  refine ⟨h.id, .inl ?_⟩
  rcases h.refreshToken with ht | ⟨hopens, -⟩
  · exact ht
  · exact absurd hopens hreq

theorem granted_openSession {userId : String} (henv : w'.env = w.env)
    (hreply : reply = .ok (.tokens (sessionTokens P userId w.env.now))) :
    List.Forall₂ (Granted P w reply) w'.db.users (w'.openSession P userId).db.users := by
  refine rows_openSession userId Granted.refl (fun _ _ _ => Granted.trans)
    (fun u p => ⟨rfl, .inl rfl⟩) fun u hid => ⟨rfl, .inr ⟨hid ▸ hreply, ?_⟩⟩
  rw [henv, ← hid]
  rfl

theorem granted_resolved {payload : TGoogleTokenPayload} {u : User}
    (h : Resolved P w payload u w') :
    Rows.Evolved (Granted P w reply) (Joined P w) w.db.users w'.db.users := by
  -- a request that opens no session sees the rows change the same way
  have hserved : Rows.Evolved (Served P w (.logout none)) (Joined P w) w.db.users w'.db.users :=
    served_resolved h
  exact hserved.mono (fun _ _ _ hs => hs.granted id) fun _ hj => hj

/-- Every row after a request is a row from before it, granted, or was added by it. -/
theorem Effect.granted (h : Effect P w request reply w') :
    Rows.Evolved (Granted P w reply) (Joined P w) w.db.users w'.db.users := by
  by_cases hreq : request.OpensSession
  swap
  · exact h.served.mono (fun _ _ _ hs => hs.granted hreq) fun _ hj => hj
  have hjoined : ∀ u u', Joined P w u → Granted P w reply u u' → Joined P w u' := by
    intro u u' hj hg
    rcases hg.refreshToken with ht | ⟨-, ht⟩
    · unfold Joined
      rw [ht, hg.id]
      exact hj
    · exact .inr (hg.id ▸ ht)
  cases h with
  | none => exact .of_forall₂ (Rows.forall₂_refl Granted.refl _)
  | google _ hres =>
    exact (granted_resolved hres).forall₂ (granted_openSession hres.env rfl)
      (fun _ _ _ => Granted.trans) hjoined
  | googleStopped _ hres => exact granted_resolved hres
  | login => exact .of_forall₂ (granted_openSession rfl rfl)
  | refresh => exact .of_forall₂ (granted_openSession rfl rfl)
  | _ => exact hreq.elim

theorem Stored.effect (h : Stored P w) (heff : Effect P w request reply w') : Stored P w' := by
  intro u' hu' token htoken
  rw [heff.env]
  rcases heff.granted.exists_old hu' with ⟨u, hu, hg⟩ | hj
  · rw [hg.id]
    rcases hg.refreshToken with ht | ⟨-, ht⟩
    · exact h u hu token (ht ▸ htoken)
    · exact ⟨_, Nat.le_refl _, Option.some.inj (htoken.symm.trans ht)⟩
  · rcases hj with ht | ht
    · rw [ht] at htoken
      cases htoken
    · exact ⟨_, Nat.le_refl _, Option.some.inj (htoken.symm.trans ht)⟩

theorem Stored.idle {env : Environment} (h : Stored P w) (hle : w.env.now ≤ env.now) :
    Stored P { w with env } := fun u hu token ht => (h u hu token ht).mono hle

/-- What a session needs of the server, in every reachable world. -/
structure Sessions (P : Packages) (w : World) : Prop where
  trx : w.trx = none
  ledger : Ledger P w
  stored : Stored P w

theorem Sessions.serves {entry : Entry} (h : Sessions P w) (hs : Serves P w entry w') :
    Sessions P w' := by
  cases hs with
  | idle hle => exact ⟨h.trx, h.ledger.idle hle, h.stored.idle hle⟩
  | call hx =>
    have heff := effect_of_exec h.trx hx
    exact ⟨heff.trx.trans h.trx, h.ledger.effect heff, h.stored.effect heff⟩

theorem ServerRun.sessions {w₀ : World} {tr : List Entry} (h : ServerRun P w₀ tr w)
    (h₀ : Fresh w₀) : Sessions P w := by
  refine Trace.Run.invariant (I := fun _ w => Sessions P w) h
    ⟨h₀.trx, ledger_fresh h₀, fun u hu => ?_⟩ fun _ _ _ _ hi hs => hi.serves hs.1
  rw [h₀.users] at hu
  cases hu

/-- The refresh token in the user's row. -/
def World.refreshTokenOf (w : World) (userId : String) : Option String :=
  (Rows.lookup User.id userId w.db.users).bind User.refreshToken

theorem refreshTokenOf_of_mem {u : User} (hu : u ∈ w.db.users) :
    w.refreshTokenOf u.id = u.refreshToken := by
  rw [World.refreshTokenOf, lookup_of_mem hu]
  rfl

end CodebaseTrpc
