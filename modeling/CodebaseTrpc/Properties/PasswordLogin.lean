import CodebaseTrpc.Spec.Logins
import CodebaseTrpc.Spec.Server

/-! Which passwords a login accepts, against the passwords that were set in the run so far. The
schemas put no upper bound on a password; the hash looks at its first bytes only. -/
namespace CodebaseTrpc
variable {P : Packages} {w w' : World} {tr : List Entry}

/-- The password that an exchange set, and for whom: a signup for the user it created, a reset for
the user of its token. -/
def passwordSet (P : Packages) (x : Exchange) : Option (String × String) :=
  match x.request, x.reply with
  | .signup input, .ok _ => some (x.before.env.uuid, input.password)
  | .resetPassword token newPassword, .ok _ =>
      (P.jwt.decode token).map fun t => (t.userId, newPassword)
  | _, _ => none

/-- The password that was set last for the user. -/
def lastPassword (P : Packages) (userId : String) : List Entry → Option String
  | [] => none
  | .idle _ :: tr => lastPassword P userId tr
  | .call x :: tr => match passwordSet P x with
    | some (id, password) => if id = userId then some password else lastPassword P userId tr
    | none => lastPassword P userId tr

def bcryptKey (password : String) : List UInt8 := password.toUTF8.data.toList.take 72

/-- The package hashes and compares the first 72 bytes, without collisions. -/
def Bcrypt72 (P : Packages) : Prop := ∀ salt p q,
  P.compareSync q (P.hashSync salt p) = true ↔ bcryptKey q = bcryptKey p

/-- The random passwords of the accounts that Google created are UUIDs, and are not submitted. -/
def RandomUnsubmitted (tr : List Entry) (q : String) : Prop :=
  ∀ x credential, Entry.call x ∈ tr → x.request = .google credential →
    x.before.env.randomPassword.toUTF8.data.size < 72 ∧ q ≠ x.before.env.randomPassword

theorem text_of_bytes {p q : String} (h : p.toUTF8.data.toList = q.toUTF8.data.toList) :
    p = q := by
  have hdata : p.toUTF8.data = q.toUTF8.data := Array.toList_inj.mp h
  exact String.toByteArray_inj.mp (ByteArray.ext hdata)

/-- The key of a short text is the whole text. -/
theorem bcryptKey_ne {p q : String} (hp : p.toUTF8.data.size < 72) (hne : q ≠ p) :
    bcryptKey q ≠ bcryptKey p := by
  intro h
  have hlen := congrArg List.length h
  simp only [bcryptKey, List.length_take, Array.length_toList] at hlen
  unfold bcryptKey at h
  rw [List.take_of_length_le (by rw [Array.length_toList]; omega),
    List.take_of_length_le (by rw [Array.length_toList]; omega)] at h
  exact hne (text_of_bytes h)

def SameHash (u u' : User) : Prop := u'.id = u.id ∧ u'.passwordHash = u.passwordHash

theorem SameHash.trans (u v x : User) (h : SameHash u v) (h' : SameHash v x) : SameHash u x :=
  ⟨h'.1.trans h.1, h'.2.trans h.2⟩

theorem SameLogin.hash {u u' : User} (h : SameLogin u u') : SameHash u u' := ⟨h.id, h.passwordHash⟩

/-- A row before and after an exchange: its hash is of the password that was set for it, or as
before. -/
def HashStep (P : Packages) (x : Exchange) (u u' : User) : Prop := u'.id = u.id ∧
  ((∀ p, passwordSet P x ≠ some (u.id, p)) ∧ u'.passwordHash = u.passwordHash ∨
    ∃ p salt, passwordSet P x = some (u.id, p) ∧ u'.passwordHash = P.hashSync salt p)

/-- A row that an exchange added: a signup's, or one that Google created. -/
structure HashJoin (P : Packages) (x : Exchange) (u : User) : Prop where
  fresh : ∀ v ∈ x.before.db.users, v.id ≠ u.id
  hash : (∃ p salt, passwordSet P x = some (u.id, p) ∧ u.passwordHash = P.hashSync salt p) ∨
    passwordSet P x = none ∧ ∃ credential salt, x.request = .google credential ∧
      u.passwordHash = P.hashSync salt x.before.env.randomPassword

/-- What an exchange does to the hashes, and that who had a password set is there. -/
structure HashesMove (P : Packages) (x : Exchange) : Prop where
  rows : Rows.Evolved (HashStep P x) (HashJoin P x) x.before.db.users x.after.db.users
  owner : ∀ id p, passwordSet P x = some (id, p) → ∃ u ∈ x.after.db.users, u.id = id

section Step
variable {request : Request} {reply : Except Err Reply}

/-- Rows that keep their hash in an exchange that sets no password. -/
theorem HashesMove.of_same {x : Exchange} (hset : passwordSet P x = none)
    (h : List.Forall₂ SameHash x.before.db.users x.after.db.users) : HashesMove P x where
  rows := .of_forall₂ (h.imp fun _ _ hu => ⟨hu.1, .inl ⟨by simp [hset], hu.2⟩⟩)
  owner := by simp [hset]

theorem passwordSet_of_error {e : Err} : passwordSet P ⟨w, request, .error e, w'⟩ = none := by
  cases request <;> rfl

/-- An id that was drawn for a new row is no old row's. -/
theorem fresh_of_append {users : List User} {row : User} (h : w'.db.users = users ++ [row]) :
    ∀ v ∈ users, v.id ≠ row.id := by
  intro v hv heq
  have hn := w'.db.sound.users_id
  rw [h, List.map_append, List.nodup_append] at hn
  exact hn.2.2 v.id (List.mem_map_of_mem hv) row.id (by simp) heq

/-- A Google sign-in keeps all hashes, and may add a row with that of the random password. -/
theorem hashes_google {credential : String} {payload : TGoogleTokenPayload} {u : User}
    {w₁ : World} (hres : Resolved P w payload u w₁)
    (hrows : List.Forall₂ SameLogin w₁.db.users w'.db.users) :
    HashesMove P ⟨w, .google credential, reply, w'⟩ := by
  have hresolved : Rows.Evolved SameHash (fun u => (∃ salt, u.passwordHash =
      P.hashSync salt w.env.randomPassword) ∧ ∀ v ∈ w.db.users, v.id ≠ u.id) w.db.users
        w₁.db.users := by
    cases hres with
    | known _ => exact .of_forall₂ (Rows.forall₂_refl (fun _ => ⟨rfl, rfl⟩) _)
    | linked _ _ _ =>
      exact .of_forall₂ (rows_updateUser (fun _ => ⟨rfl, rfl⟩) fun _ _ _ => ⟨rfl, rfl⟩)
    | created _ _ _ hw =>
      have hfresh := fresh_of_append hw
      rw [hw]
      exact .append (fun _ => ⟨rfl, rfl⟩) ⟨⟨_, rfl⟩, hfresh⟩
  have hall := hresolved.forall₂ (hrows.imp fun _ _ => SameLogin.hash) SameHash.trans
    fun u v hu huv => ⟨hu.1.imp fun _ => huv.2.trans, fun x hx => huv.1 ▸ hu.2 x hx⟩
  refine ⟨hall.mono (fun u _ u' hu => ⟨hu.1, .inl ⟨nofun, hu.2⟩⟩)
    fun u hu => ⟨hu.2, .inr ⟨rfl, ?_⟩⟩, nofun⟩
  obtain ⟨salt, hsalt⟩ := hu.1
  exact ⟨credential, salt, rfl, hsalt⟩

/-- A signup adds a row with the hash of its password. -/
theorem hashes_signup {input : SignupInput} {user : CreateUserInput} {reply : Reply}
    (huser : user.passwordHash = P.hashSync w.env.salt input.password)
    (hrow : (w.exec (insertUser user)).db.users =
      w.db.users ++ [user.row w.env.uuid w.env.now]) :
    HashesMove P ⟨w, .signup input, .ok reply,
      (w.exec (insertUser user)).issueVerification P (user.row w.env.uuid w.env.now)⟩ := by
  have hset : passwordSet P ⟨w, .signup input, .ok reply,
      (w.exec (insertUser user)).issueVerification P (user.row w.env.uuid w.env.now)⟩ =
        some (w.env.uuid, input.password) := rfl
  have hfresh := fresh_of_append hrow
  have hinserted : Rows.Evolved SameHash (fun u => u.id = w.env.uuid ∧
      u.passwordHash = P.hashSync w.env.salt input.password) w.db.users
        (w.exec (insertUser user)).db.users := by
    rw [hrow]
    exact .append (fun _ => ⟨rfl, rfl⟩) ⟨rfl, huser⟩
  have hmailed := sameLogin_issueVerification (P := P) (w := w.exec (insertUser user))
    (user.row w.env.uuid w.env.now)
  have hall := hinserted.forall₂ (hmailed.imp fun _ _ => SameLogin.hash) SameHash.trans
    fun u v hu huv => ⟨huv.1.trans hu.1, huv.2.trans hu.2⟩
  refine ⟨hall.mono (fun u hu u' huu' => ⟨huu'.1, .inl ⟨fun p hp => ?_, huu'.2⟩⟩)
    fun u hu => ⟨fun v hv => hu.1 ▸ hfresh v hv, .inl ⟨_, _, hu.1 ▸ hset, hu.2⟩⟩, fun id p hp => ?_⟩
  · rw [hset] at hp
    exact hfresh u hu (congrArg Prod.fst (Option.some.inj hp)).symm
  · obtain ⟨rfl, -⟩ := Prod.mk.inj (Option.some.inj (hset.symm.trans hp))
    have hmem : user.row w.env.uuid w.env.now ∈ (w.exec (insertUser user)).db.users := by
      rw [hrow]
      simp
    obtain ⟨u, hu, hsame⟩ := Rows.exists_new hmailed hmem
    exact ⟨u, hu, hsame.id⟩

/-- A reset writes the hash of the new password into the row of its user. -/
theorem hashes_reset {token newPassword : String} {t : Token} {u : User} {reply : Reply}
    (ht : opens P token w.env.now t) (hu : Rows.lookup User.id t.userId w.db.users = some u)
    (hrow : w'.db.users = Rows.update User.id u.id ((storePassword
      (P.hashSync w.env.salt newPassword)).apply w.env.now) w.db.users) :
    HashesMove P ⟨w, .resetPassword token newPassword, .ok reply, w'⟩ := by
  have hid := Rows.lookup_key hu
  have hset : passwordSet P ⟨w, .resetPassword token newPassword, .ok reply, w'⟩ =
      some (u.id, newPassword) := by
    simp [passwordSet, ht.2.2, hid]
  refine ⟨.of_forall₂ ?_, fun id p hp => ?_⟩
  · dsimp only
    rw [hrow, Rows.update, List.forall₂_map_right_iff, List.forall₂_same]
    intro v _
    split_ifs with hv
    · exact ⟨rfl, .inr ⟨_, _, hv ▸ hset, rfl⟩⟩
    · refine ⟨rfl, .inl ⟨fun p hp => hv ?_, rfl⟩⟩
      exact (congrArg Prod.fst (Option.some.inj (hset.symm.trans hp))).symm
  · obtain ⟨rfl, -⟩ := Prod.mk.inj (Option.some.inj (hset.symm.trans hp))
    have hmem := Rows.mem_update_self User.id ((storePassword
      (P.hashSync w.env.salt newPassword)).apply w.env.now) (Rows.lookup_mem hu)
    rw [← hrow] at hmem
    exact ⟨_, hmem, rfl⟩

theorem Effect.hashes (h : Effect P w request reply w') :
    HashesMove P ⟨w, request, reply, w'⟩ := by
  by_cases hreq : request.WritesLogin
  swap
  · refine .of_same ?_ ((h.sameLogin hreq).imp fun _ _ => SameLogin.hash)
    cases request <;> first | rfl | exact absurd trivial hreq
  cases h with
  | none hidle =>
    refine .of_same ?_ (Rows.forall₂_refl (fun _ => ⟨rfl, rfl⟩) _)
    rcases hidle with ⟨e, rfl⟩ | hidle
    · exact passwordSet_of_error
    · cases request <;> first | exact hreq.elim | exact hidle.elim
  | google _ hres => exact hashes_google hres (sameLogin_openSession _)
  | googleStopped _ hres => exact hashes_google hres (Rows.forall₂_refl SameLogin.refl _)
  | signup _ hrow => exact hashes_signup rfl hrow
  | resetPassword ht _ hu hrow => exact hashes_reset ht hu hrow
  | updateUserById =>
    exact .of_same rfl (rows_updateUser (fun _ => ⟨rfl, rfl⟩) fun _ _ _ => ⟨rfl, rfl⟩)
  | emailChanged =>
    exact .of_same rfl (rows_updateUser (fun _ => ⟨rfl, rfl⟩) fun _ _ _ => ⟨rfl, rfl⟩)
  | codeWrong _ _ _ _ hdrift _ =>
    exact .of_same rfl (rows_drifted (fun _ => ⟨rfl, rfl⟩) hdrift fun _ _ _ _ hd =>
      ⟨hd.id, hd.passwordHash⟩)
  | _ => exact hreq.elim

end Step

theorem lastPassword_set {x : Exchange} {id p : String} (h : passwordSet P x = some (id, p)) :
    lastPassword P id (.call x :: tr) = some p := by
  simp [lastPassword, h]

theorem lastPassword_other {x : Exchange} {id : String}
    (h : ∀ p, passwordSet P x ≠ some (id, p)) :
    lastPassword P id (.call x :: tr) = lastPassword P id tr := by
  simp only [lastPassword]
  split
  next id' p hset =>
    rw [if_neg]
    rintro rfl
    exact h p hset
  next => rfl

/-- Every hash is of the password that was set last, or of the random password of a sign-in with
Google. -/
structure PasswordsKnown (P : Packages) (tr : List Entry) (w : World) : Prop where
  trx : w.trx = none
  hash : ∀ u ∈ w.db.users,
    (∃ p salt, lastPassword P u.id tr = some p ∧ u.passwordHash = P.hashSync salt p) ∨
      lastPassword P u.id tr = none ∧ ∃ x credential salt, Entry.call x ∈ tr ∧
        x.request = .google credential ∧
          u.passwordHash = P.hashSync salt x.before.env.randomPassword
  owner : ∀ id p, lastPassword P id tr = some p → ∃ u ∈ w.db.users, u.id = id

theorem PasswordsKnown.call {x : Exchange} (h : PasswordsKnown P tr x.before)
    (hm : HashesMove P x) (htrx : x.after.trx = none) :
    PasswordsKnown P (.call x :: tr) x.after where
  trx := htrx
  hash u' hu' := by
    rcases hm.rows.exists_old hu' with ⟨u, hu, hid, hstep⟩ | hjoin
    · rw [hid]
      rcases hstep with ⟨hset, hsame⟩ | ⟨p, salt, hset, hhash⟩
      · rw [lastPassword_other hset, hsame]
        refine (h.hash u hu).imp_right ?_
        rintro ⟨hnone, y, credential, salt, hy, hreq, hrandom⟩
        exact ⟨hnone, y, credential, salt, List.mem_cons_of_mem _ hy, hreq, hrandom⟩
      · exact .inl ⟨p, salt, lastPassword_set hset, hhash⟩
    · rcases hjoin.hash with ⟨p, salt, hset, hhash⟩ | ⟨hset, credential, salt, hreq, hhash⟩
      · exact .inl ⟨p, salt, lastPassword_set hset, hhash⟩
      · refine .inr ⟨?_, x, credential, salt, List.mem_cons_self, hreq, hhash⟩
        rw [lastPassword_other (by simp [hset])]
        -- no password was set for an id that nobody had
        cases hlast : lastPassword P u'.id tr with
        | none => rfl
        | some p =>
          obtain ⟨v, hv, hid⟩ := h.owner _ p hlast
          exact absurd hid (hjoin.fresh v hv)
  owner id p hlast := by
    by_cases hset : ∃ p, passwordSet P x = some (id, p)
    · obtain ⟨p', hset⟩ := hset
      exact hm.owner id p' hset
    · rw [lastPassword_other (by simpa using hset)] at hlast
      obtain ⟨u, hu, hid⟩ := h.owner id p hlast
      obtain ⟨u', hu', hstep⟩ := hm.rows.exists_new hu
      exact ⟨u', hu', hstep.1.trans hid⟩

theorem ServerRun.passwordsKnown {w₀ : World} (h : ServerRun P w₀ tr w) (h₀ : Fresh w₀) :
    PasswordsKnown P tr w := by
  refine Trace.Run.invariant h
    ⟨h₀.trx, by simp [h₀.users], fun id p hp => by cases hp⟩ ?_
  rintro tr s entry t hknown ⟨hserves, -⟩
  cases hserves with
  | idle _ =>
    refine ⟨hknown.trx, fun u hu => (hknown.hash u hu).imp_right ?_, hknown.owner⟩
    rintro ⟨hnone, y, credential, salt, hy, hreq, hhash⟩
    exact ⟨hnone, y, credential, salt, List.mem_cons_of_mem _ hy, hreq, hhash⟩
  | call hx =>
    have heff := effect_of_exec hknown.trx hx
    exact hknown.call heff.hashes (heff.trx.trans hknown.trx)

/-- The credential check, on the email that was sent and the hash that is stored. -/
theorem login_passes_iff {input : LoginInput} {reply : Except Err Reply}
    (hschema : loginSchema P input) (hx : (handle P (.login input)).Exec w reply w') :
    reply ≠ .error wrongCredentials ↔ ∃ u, Rows.lookup User.email input.email w.db.users = some u ∧
      P.compareSync input.password u.passwordHash = true := by
  replace hx := (Async.exec_iff_run (awaits_handle P fun _ _ h => by cases h)).mp hx
  have hrun : ((authenticateUser P input).bind fun tokens => .pure (.tokens tokens)).run w =
      (reply, w') := by
    simpa [handle, validated, hschema] using hx
  rw [authenticateUser_eq, Async.bind_assoc, Async.run_bind_ok (run_getUserByEmail ..)] at hrun
  cases hl : Rows.lookup User.email input.email w.db.users with
  | none =>
    rw [hl] at hrun
    obtain ⟨rfl, -⟩ := Prod.mk.inj hrun
    simp
  | some u =>
    simp only [hl] at hrun
    split_ifs at hrun with hc
    · rw [Async.run_bind, run_startSession P (lookup_of_mem (Rows.lookup_mem hl))] at hrun
      have hpass : ∃ v, some u = some v ∧ P.compareSync input.password v.passwordHash = true :=
        ⟨u, rfl, hc⟩
      split_ifs at hrun
      · obtain ⟨rfl, -⟩ := Prod.mk.inj hrun
        simpa [freeTierNotFound, wrongCredentials] using hc
      · obtain ⟨rfl, -⟩ := Prod.mk.inj hrun
        simpa using hc
    · obtain ⟨rfl, -⟩ := Prod.mk.inj hrun
      simpa using hc

/-- In every run, a login passes the credential check for the password that was set last and no
other exactly if no other password of the same first 72 bytes is sent. -/
theorem login_exact_iff {w₀ : World} {email q : String} {reply : Except Err Reply}
    (hb : Bcrypt72 P) (h₀ : Fresh w₀) (hrun : ServerRun P w₀ tr w)
    (hrandom : RandomUnsubmitted tr q) (hschema : loginSchema P ⟨email, q⟩)
    (hx : (handle P (.login ⟨email, q⟩)).Exec w reply w') :
    (reply ≠ .error wrongCredentials ↔ ∃ u, Rows.lookup User.email email w.db.users = some u ∧
        lastPassword P u.id tr = some q) ↔
      ∀ u, Rows.lookup User.email email w.db.users = some u → ∀ p, lastPassword P u.id tr = some p →
        bcryptKey q = bcryptKey p → q = p := by
  have hknown := hrun.passwordsKnown h₀
  rw [login_passes_iff hschema hx]
  cases hl : Rows.lookup User.email email w.db.users with
  | none => simp
  | some u =>
    simp only [Option.some.injEq, exists_eq_left', forall_eq']
    rcases hknown.hash u (Rows.lookup_mem hl) with ⟨p, salt, hlast, hhash⟩ |
      ⟨hnone, x, credential, salt, hx, hreq, hhash⟩
    · rw [hhash, hb, hlast]
      simp only [Option.some.injEq, forall_eq']
      constructor
      · intro h hkey
        exact (h.mp hkey).symm
      · exact fun h => ⟨fun hkey => (h hkey).symm, fun hp => by rw [hp]⟩
    · obtain ⟨hshort, hne⟩ := hrandom x credential hx hreq
      have hkey := bcryptKey_ne hshort hne
      rw [hhash, hb, hnone]
      simpa using hkey

namespace Sample

/-- A hash that is the key of the password, a letter for each byte. -/
def hashOf (password : String) : String :=
  "hash of " ++ String.ofList ((bcryptKey password).map fun byte => Char.ofNat byte.toNat)

def bcryptPackages : Packages := { packages with
  hashSync := fun _ password => hashOf password
  compareSync := fun password hash => decide (hash = hashOf password) }

theorem letter_injective : Function.Injective fun byte : UInt8 => Char.ofNat byte.toNat := by
  intro a b h
  have hvalid : ∀ byte : UInt8, (Char.ofNat byte.toNat).toNat = byte.toNat := by
    intro byte
    have hlt := byte.toNat_lt
    have hchar : byte.toNat.isValidChar := by
      unfold Nat.isValidChar
      omega
    rw [Char.ofNat, dif_pos hchar]
    rfl
  have hnat := congrArg Char.toNat h
  simp only [hvalid] at hnat
  exact UInt8.toNat_inj.mp hnat

theorem bcrypt72 : Bcrypt72 bcryptPackages := by
  intro salt p q
  simp only [bcryptPackages, decide_eq_true_eq]
  constructor
  · intro h
    have hlist := congrArg String.toList h
    simp only [hashOf, String.toList_append, String.toList_ofList, List.append_cancel_left_eq]
      at hlist
    exact (List.map_injective_iff.mpr letter_injective hlist).symm
  · exact fun h => by rw [hashOf, hashOf, h]

/-- Passwords that differ in the last of their 73 letters. -/
def longPassword (last : Char) : String := String.ofList (List.replicate 72 'a' ++ [last])

def longSignup : List Move := [.ask (.signup { ann with password := longPassword '1' })]

def longSigned : List Entry × World := playFrom bcryptPackages [] start longSignup

theorem serverRun_longSigned : ServerRun bcryptPackages start longSigned.1 longSigned.2 :=
  runWhere_play _ _ _ _ fun _ _ _ _ _ _ => trivial

theorem randomUnsubmitted_longSigned (q : String) : RandomUnsubmitted longSigned.1 q := by
  intro x credential hx hreq
  rcases mem_playFrom hx with hx | hx
  · cases hx
  · rw [hreq] at hx
    simp [longSignup] at hx

def longLogin : LoginInput := ⟨"ann@mail", longPassword '2'⟩

set_option maxRecDepth 10000 in
theorem longSigned_facts : loginSchema bcryptPackages longLogin ∧
    ((handle bcryptPackages (.login longLogin)).run longSigned.2).1.isOk = true ∧
    (Rows.lookup User.email "ann@mail" longSigned.2.db.users).map User.id = some "u1" ∧
    lastPassword bcryptPackages "u1" longSigned.1 = some (longPassword '1') ∧
    longPassword '1' ≠ longPassword '2' := by decide +kernel

end Sample

/-- A login with another password of the same first 72 bytes. -/
theorem login_exact_iff_long :
    (((handle Sample.bcryptPackages (.login Sample.longLogin)).run Sample.longSigned.2).1 ≠
        .error wrongCredentials ↔
      ∃ u, Rows.lookup User.email "ann@mail" Sample.longSigned.2.db.users = some u ∧
        lastPassword Sample.bcryptPackages u.id Sample.longSigned.1 =
          some (Sample.longPassword '2')) ↔
    ∀ u, Rows.lookup User.email "ann@mail" Sample.longSigned.2.db.users = some u →
      ∀ p, lastPassword Sample.bcryptPackages u.id Sample.longSigned.1 = some p →
        bcryptKey (Sample.longPassword '2') = bcryptKey p → Sample.longPassword '2' = p :=
  login_exact_iff Sample.bcrypt72 Sample.start_fresh Sample.serverRun_longSigned
    (Sample.randomUnsubmitted_longSigned _) Sample.longSigned_facts.1 (Async.exec_run ..)

/-- A login passes with a password that was never set. -/
theorem login_ignores_tail : ¬ ∀ (P : Packages) (w₀ w w' : World) (tr : List Entry)
    (email q : String) (reply : Except Err Reply), Bcrypt72 P → Fresh w₀ → ServerRun P w₀ tr w →
      RandomUnsubmitted tr q → loginSchema P ⟨email, q⟩ →
        (handle P (.login ⟨email, q⟩)).Exec w reply w' →
          (reply ≠ .error wrongCredentials ↔ ∃ u,
            Rows.lookup User.email email w.db.users = some u ∧
              lastPassword P u.id tr = some q) := by
  intro h
  obtain ⟨hschema, hok, hu, hlast, hne⟩ := Sample.longSigned_facts
  have hiff := h _ _ _ _ _ _ _ _ Sample.bcrypt72 Sample.start_fresh Sample.serverRun_longSigned
    (Sample.randomUnsubmitted_longSigned _) hschema (Async.exec_run ..)
  have hpass : ((handle Sample.bcryptPackages (.login Sample.longLogin)).run
      Sample.longSigned.2).1 ≠ .error wrongCredentials := by
    intro heq
    rw [heq] at hok
    cases hok
  obtain ⟨u, hl, hset⟩ := hiff.mp hpass
  rw [hl] at hu
  have hid : u.id = "u1" := Option.some.inj hu
  rw [hid] at hset
  exact hne (Option.some.inj (hlast.symm.trans hset))

end CodebaseTrpc
