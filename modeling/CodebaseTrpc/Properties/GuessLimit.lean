import CodebaseTrpc.Spec.Drift
import CodebaseTrpc.Spec.Interleavings
import CodebaseTrpc.Spec.Server

/-! How many wrong codes can be tried on one email change. The count lives in the stored token:
a call reads it, and a check that nobody awaits stores it raised by one. -/
namespace CodebaseTrpc
open Async

/-- Calls of `verifyEmailChange` side by side, and their store. -/
abbrev GuessPool : Type 1 := Pool World Err UserProfile

section Run
variable (P : Packages) (userId issued : String)

/-- A call of the user, whatever the code. -/
def Guess (p : Promise UserProfile) : Prop := ∃ code, p = verifyEmailChange P userId code

/-- The step that calls `verifyEmailChangeCode`, which compares `code` with the issued one. -/
def Compares (code : String) (x y : GuessPool) : Prop :=
  ∃ (pre post : List (Call World Err UserProfile)) (ds : List (Detached World Err)) (t : Token)
    (k : Promise UserProfile) (w : World), t.purpose = some .emailChange ∧ t.code = some issued ∧
      x = (pre ++ ⟨.spawn (verifyEmailChangeCode P userId code t) k, ds⟩ :: post, w) ∧
      y = (pre ++ ⟨k, ds ++ [⟨Unit, verifyEmailChangeCode P userId code t⟩]⟩ :: post, w)

/-- An interleaving from the store `w`, all of whose pools meet a condition, with the codes
it compared with the issued one, the latest first. -/
inductive GuessRun (C : List (Call World Err UserProfile) → Prop) (w : World) :
    List String → GuessPool → Prop
  | start : GuessRun C w [] ([], w)
  | silent {codes : List String} {x y : GuessPool} (h : GuessRun C w codes x)
      (hs : Pool.Step (Guess P userId) Ticks x y) (hq : ∀ code, ¬ Compares P userId issued code x y)
      (hC : C y.1) : GuessRun C w codes y
  | compare {codes : List String} {x y : GuessPool} {code : String} (h : GuessRun C w codes x)
      (hs : Compares P userId issued code x y) (hC : C y.1) : GuessRun C w (code :: codes) y

/-- The call has not read the token, or is done with it: it has rejected without a comparison,
or its check has stored the raised count. -/
def Clear (c : Call World Err UserProfile) : Prop :=
  (c.detached = [] ∧ (Guess P userId c.main ∨ c.main.Settled)) ∨
    (c.detached ≠ [] ∧ ∀ d ∈ c.detached, d.2.Settled)

/-- At most one call is between its reading of the token and the end of its check. -/
def OneAtATime (cs : List (Call World Err UserProfile)) : Prop :=
  cs.Pairwise fun c c' => Clear P userId c ∨ Clear P userId c'

end Run

def wrongCodes (issued : String) (codes : List String) : ℕ :=
  codes.countP fun code => code ≠ issued

/-- No code is compared once the wrong ones have reached the limit, and a call that ends
without a comparison has rejected. -/
structure GuessLimit (issued : String) (codes : List String) (x : GuessPool) : Prop where
  compared : ∀ code before, code :: before <:+ codes →
    wrongCodes issued before < maxVerificationAttempts
  bound : wrongCodes issued codes ≤ maxVerificationAttempts
  rejected : ∀ c ∈ x.1, c.detached = [] → c.main.Settled → ∃ e, c.main = .throw e

section
variable {P : Packages} {userId issued : String} {C : List (Call World Err UserProfile) → Prop}
  {w : World}

theorem Compares.step {code : String} {x y : GuessPool} (h : Compares P userId issued code x y) :
    Pool.Step (Guess P userId) Ticks x y := by
  obtain ⟨pre, post, ds, t, k, v, -, -, rfl, rfl⟩ := h
  exact .call (.main rfl)

/-- Every interleaving is such a run. -/
theorem exists_guessRun {x : GuessPool} (h : Pool.Steps (Guess P userId) Ticks ([], w) x) :
    ∃ codes, GuessRun P userId issued (fun _ => True) w codes x := by
  induction h with
  | refl => exact ⟨[], .start⟩
  | @tail x y _ hs ih =>
    obtain ⟨codes, ih⟩ := ih
    by_cases hq : ∃ code, Compares P userId issued code x y
    · obtain ⟨code, hq⟩ := hq
      exact ⟨code :: codes, .compare ih hq trivial⟩
    · exact ⟨codes, .silent ih hs (fun code hc => hq ⟨code, hc⟩) trivial⟩

/-- A token of the code that counts at least `k` attempts. -/
def Holds (P : Packages) (issued : String) (k : ℕ) (token : String) : Prop :=
  ∃ t n iat, P.jwt.decode token = some t ∧ t.code = some issued ∧ t.attempts = some n ∧ k ≤ n ∧
    t.iat = some iat

/-- What the user still has pending counts at least `k` attempts. -/
def Counted (P : Packages) (userId issued : String) (k : ℕ) (w : World) : Prop :=
  ∀ u ∈ w.db.users, u.id = userId → ∀ token ∈ u.emailVerificationToken, Holds P issued k token

theorem counted_update {k : ℕ} {updates : UserUpdates}
    (h : ∀ u, ∀ token ∈ (updates.apply w.env.now u).emailVerificationToken, Holds P issued k token)
    (hex : (w.exec (updateUser userId updates)).db.users =
      Rows.update User.id userId (updates.apply w.env.now) w.db.users) :
    Counted P userId issued k (w.exec (updateUser userId updates)) := by
  intro u hu hid token htoken
  rw [hex] at hu
  rcases Rows.mem_update.mp hu with ⟨v, -, -, rfl⟩ | ⟨-, hne⟩
  · exact h v token htoken
  · exact absurd hid hne

/-- The change itself only clears the token. -/
theorem counted_changeEmail {k : ℕ} {newEmail : String} (h : Counted P userId issued k w) :
    Counted P userId issued k (w.exec (updateUser userId (changeEmail newEmail))) := by
  rcases hs : updateUser userId (changeEmail newEmail) w w.db with e | ⟨v, db⟩
  · have hw : w.exec (updateUser userId (changeEmail newEmail)) = w := by simp [World.exec, hs]
    rwa [hw]
  · refine counted_update (fun u token htoken => ?_) (exec_updateUser_users_of_ok hs)
    simp [changeEmail] at htoken

/-- What a step leaves counted. -/
def Counts (P : Packages) (userId issued : String) (v w : World) : Prop :=
  ∀ k, Counted P userId issued k v → Counted P userId issued k w

theorem guarantees_applyEmailChange (userId newEmail : String) :
    (applyEmailChange userId newEmail).Guarantees (Counts P userId issued) := by
  have hselect : ∀ {α : Type} (query : Db → α),
      (select query : Promise α).Guarantees (Counts P userId issued) :=
    fun query => guarantees_select (fun _ _ h => h) query
  rw [applyEmailChange_eq]
  refine (hselect _).bind fun existing => ?_
  split
  · trivial
  refine (guarantees_write fun v k hv => counted_changeEmail hv).bind fun _ => ?_
  refine ((hselect _).bind fun _ => trivial : (getUserProfile userId).Guarantees _).bind
    fun profile => ?_
  split <;> trivial

theorem holds_attempt {k : ℕ} {t : Token} {n iat now seconds : ℕ} (hc : t.code = some issued)
    (hn : t.attempts = some n) (hk : k ≤ n + 1) :
    Holds P issued k (P.jwt.sign (stamp (attemptInput t iat) seconds now)) := by
  refine ⟨_, n + 1, _, P.jwt.decode_sign _, ?_, ?_, hk, rfl⟩
  · simpa [stamp, attemptInput] using hc
  · simp [stamp, attemptInput, hn]

theorem ends_write {α β : Type} {J : World → Prop}
    {statement : World → Db → Except Err (α × Db)} {f : α → Promise β}
    (hf : ∀ a, (f a).Settled) (h : ∀ v : World, J (v.exec statement)) :
    ((write .knex statement).bind f).Ends J := by
  intro v
  have hv := h v
  simp only [World.exec, World.view, World.put] at hv ⊢
  right
  cases he : statement v v.db with
  | error e =>
    rw [he] at hv
    exact ⟨⟨.error e, rfl⟩, hv⟩
  | ok a =>
    rw [he] at hv
    exact ⟨hf a.1, hv⟩

/-- A check that found the code wrong ends by storing the raised count. -/
theorem ends_verifyEmailChangeCode {code : String} {t : Token} {k n iat : ℕ}
    (hp : t.purpose = some .emailChange) (hcode : t.code ≠ some code) (hc : t.code = some issued)
    (hn : t.attempts = some n) (hk : k ≤ n + 1) (hiat : t.iat = some iat) :
    (verifyEmailChangeCode P userId code t).Ends (Counted P userId issued k) := by
  rw [verifyEmailChangeCode_wrong hp hcode]
  intro s
  left
  simp only [bind_pure_left, hiat]
  intro v
  left
  refine ends_write (fun _ => ⟨.error _, rfl⟩) fun x => ?_
  refine counted_update (fun u token htoken => ?_) (exec_updateUser_users (storePending_quiet _))
  cases htoken
  exact holds_attempt hc hn hk

/-- `verifyEmailChange` from the point where the pending token was read. -/
def checkToken (P : Packages) (userId code token : String) : Promise UserProfile :=
  (verifyJwtToken P token).bind fun _ => (decodeJwtToken P token).bind fun t =>
    if t.purpose ≠ some .emailChange then .throw (badRequest "Invalid token purpose")
    else checkedChange P userId code t

/-- A call that has compared nothing yet; if it holds a token, one that counts `k` attempts. -/
inductive Undecided (P : Packages) (userId issued : String) (k : ℕ) : Promise UserProfile → Prop
  | reading (code : String) : Undecided P userId issued k (verifyEmailChange P userId code)
  | checking {code token : String} (hne : token ≠ "") (h : Holds P issued k token) :
      Undecided P userId issued k (checkToken P userId code token)
  | comparing {code newEmail : String} {t : Token} {n iat : ℕ} (hp : t.purpose = some .emailChange)
      (hc : t.code = some issued) (hn : t.attempts = some n) (hk : k ≤ n)
      (hmax : n < maxVerificationAttempts) (hiat : t.iat = some iat) :
      Undecided P userId issued k
        (.spawn (verifyEmailChangeCode P userId code t) (applyEmailChange userId newEmail))
  | rejected (e : Err) : Undecided P userId issued k (.throw e)

theorem checkToken_act {code token : String} (hne : token ≠ "") : checkToken P userId code token =
    .act id fun w => (if Live P token w.env.now then .pure ()
      else .throw (tokenError P token) : Promise Unit).bind fun _ =>
        (decodeJwtToken P token).bind fun t =>
          if t.purpose ≠ some .emailChange then .throw (badRequest "Invalid token purpose")
          else checkedChange P userId code t := by
  simp only [checkToken, verifyJwtToken, hne, if_false, bind_act]

/-- Past the check of its token, a call compares or has rejected. -/
theorem undecided_checkedChange {code : String} {t : Token} {k n iat : ℕ}
    (hp : t.purpose = some .emailChange) (hc : t.code = some issued) (hn : t.attempts = some n)
    (hk : k ≤ n) (hiat : t.iat = some iat) :
    Undecided P userId issued k (checkedChange P userId code t) := by
  unfold checkedChange
  split
  next c newEmail attempts hc' hn' ha =>
    obtain rfl : attempts = n := Option.some.inj (ha.symm.trans hn)
    split_ifs with hmax
    · exact .rejected _
    · exact .comparing hp hc hn hk (by omega) hiat
  next => exact .rejected _

/-- Reading the token: the call rejects, or goes on with what is stored. -/
theorem next_reading {code : String} {p' : Promise UserProfile} {born : List (Detached World Err)}
    {v : World} (h : (verifyEmailChange P userId code).next w = some (p', born, v)) :
    v = w ∧ born = [] ∧ ((∃ e, p' = .throw e) ∨ ∃ u token, u ∈ w.db.users ∧ u.id = userId ∧
      u.emailVerificationToken = some token ∧ token ≠ "" ∧
      p' = checkToken P userId code token) := by
  rw [verifyEmailChange_eq] at h
  cases h
  refine ⟨rfl, rfl, ?_⟩
  simp only [bind_pure_left]
  cases hu : Rows.lookup User.id userId w.db.users with
  | none => exact .inl ⟨_, rfl⟩
  | some u =>
    cases ht : truthyText u.emailVerificationToken with
    | none => simp only [ht]; exact .inl ⟨_, rfl⟩
    | some token =>
      obtain ⟨hstored, hne⟩ := truthyText_eq_some ht
      simp only [ht]
      exact .inr ⟨u, token, Rows.lookup_mem hu, Rows.lookup_key hu, hstored, hne, rfl⟩

/-- Checking the token: the call rejects, or is about to compare. -/
theorem next_checking {code token : String} {k : ℕ} {p' : Promise UserProfile}
    {born : List (Detached World Err)} {v : World} (hne : token ≠ "")
    (hh : Holds P issued k token)
    (h : (checkToken P userId code token).next w = some (p', born, v)) :
    v = w ∧ born = [] ∧ Undecided P userId issued k p' := by
  rw [checkToken_act hne] at h
  cases h
  refine ⟨rfl, rfl, ?_⟩
  dsimp only
  split_ifs
  · obtain ⟨t, n, iat, hd, hc, hn, hk, hiat⟩ := hh
    simp only [bind_pure_left, decodeJwtToken, hne, if_false, hd]
    split_ifs with hp
    · exact .rejected _
    · exact undecided_checkedChange (by simpa using hp) hc hn hk hiat
  · exact .rejected _

/-- A call that has compared goes on with the change, and starts nothing else. -/
def Decided (P : Packages) (userId issued : String) (p : Promise UserProfile) : Prop :=
  p.Awaits ∧ p.Guarantees (Counts P userId issued)

structure GuessInv (P : Packages) (userId issued : String) (k : ℕ) (x : GuessPool) : Prop where
  calls : ∀ c ∈ x.1, (c.detached = [] ∧ Undecided P userId issued k c.main) ∨
    (c.detached ≠ [] ∧ Decided P userId issued c.main)
  checks : ∀ c ∈ x.1, ∀ d ∈ c.detached, d.2.Settled ∨ d.2.Ends (Counted P userId issued k)
  /-- The store counts every wrong code, or the check of the last one is on its way. -/
  counted : Counted P userId issued k x.2 ∨ ∃ c ∈ x.1, ∃ d ∈ c.detached, ¬ d.2.Settled

/-- A check on its way stays there while its call keeps its children. -/
theorem unsettled_replace {pre post : List (Call World Err UserProfile)}
    {c c' : Call World Err UserProfile} (hds : ∀ d ∈ c.detached, d ∈ c'.detached)
    (h : ∃ e ∈ pre ++ c :: post, ∃ d ∈ e.detached, ¬ d.2.Settled) :
    ∃ e ∈ pre ++ c' :: post, ∃ d ∈ e.detached, ¬ d.2.Settled := by
  obtain ⟨e, he, d, hd, hset⟩ := h
  rcases mem_middle.mp he with rfl | he
  · exact ⟨c', mem_middle.mpr (.inl rfl), d, hds d hd, hset⟩
  · exact ⟨e, mem_middle.mpr (.inr he), d, hd, hset⟩

/-- While one call is in between, the others are clear. -/
theorem OneAtATime.others {pre post : List (Call World Err UserProfile)}
    {c : Call World Err UserProfile} (h : OneAtATime P userId (pre ++ c :: post))
    (hc : ¬ Clear P userId c) : ∀ d ∈ pre ++ post, Clear P userId d := by
  obtain ⟨-, hpost, hpre⟩ := List.pairwise_append.mp h
  intro d hd
  rcases List.mem_append.mp hd with hd | hd
  · exact (hpre d hd c List.mem_cons_self).resolve_right hc
  · exact ((List.pairwise_cons.mp hpost).1 d hd).resolve_left hc

theorem Clear.settled {c : Call World Err UserProfile} (h : Clear P userId c) :
    ∀ d ∈ c.detached, d.2.Settled := by
  rcases h with ⟨hnil, -⟩ | ⟨-, h⟩
  · simp [hnil]
  · exact h

theorem checkToken_not_clear {code token : String} (hne : token ≠ "") :
    ¬ Clear P userId ⟨checkToken P userId code token, []⟩ := by
  rintro (⟨-, ⟨c, hc⟩ | ⟨r, hr⟩⟩ | ⟨hnil, -⟩)
  · rw [checkToken_act hne, verifyEmailChange_eq] at hc
    cases hc
  · rw [checkToken_act hne] at hr
    cases r <;> cases hr
  · exact hnil rfl

/-- A step of a call that has compared nothing and does not compare now. -/
theorem GuessInv.undecided_next {k : ℕ} {pre post : List (Call World Err UserProfile)}
    {p p' : Promise UserProfile} {born : List (Detached World Err)} {v : World}
    (h : GuessInv P userId issued k (pre ++ ⟨p, []⟩ :: post, w))
    (hp : Undecided P userId issued k p) (hn : p.next w = some (p', born, v))
    (hq : ∀ code t k, t.purpose = some .emailChange → t.code = some issued →
      p ≠ .spawn (verifyEmailChangeCode P userId code t) k)
    (hone : OneAtATime P userId (pre ++ ⟨p', born⟩ :: post)) :
    v = w ∧ born = [] ∧ Undecided P userId issued k p' := by
  cases hp with
  | reading code =>
    obtain ⟨rfl, rfl, ⟨e, rfl⟩ | ⟨u, token, hu, hid, hstored, hne, rfl⟩⟩ := next_reading hn
    · exact ⟨rfl, rfl, .rejected e⟩
    · have hclear := hone.others (checkToken_not_clear hne)
      have hcount : Counted P userId issued k v := by
        rcases h.counted with hcount | ⟨c, hc, d, hd, hset⟩
        · exact hcount
        · rcases mem_middle.mp hc with rfl | hc
          · cases hd
          · exact absurd ((hclear c hc).settled d hd) hset
      exact ⟨rfl, rfl, .checking hne (hcount u hu hid token hstored)⟩
  | checking hne hh => exact next_checking hne hh hn
  | comparing hp hc _ _ _ _ => exact absurd rfl (hq _ _ _ hp hc)
  | rejected e => cases hn

/-- A step of the main program of a call, other than a comparison. -/
theorem GuessInv.main {k : ℕ} {pre post : List (Call World Err UserProfile)}
    {p p' : Promise UserProfile} {ds born : List (Detached World Err)} {v : World}
    (h : GuessInv P userId issued k (pre ++ ⟨p, ds⟩ :: post, w))
    (hn : p.next w = some (p', born, v))
    (hq : ∀ code t k, t.purpose = some .emailChange → t.code = some issued →
      p ≠ .spawn (verifyEmailChangeCode P userId code t) k)
    (hone : OneAtATime P userId (pre ++ ⟨p', ds ++ born⟩ :: post)) :
    GuessInv P userId issued k (pre ++ ⟨p', ds ++ born⟩ :: post, v) := by
  have hchecks := h.checks ⟨p, ds⟩ (by simp)
  rcases h.calls ⟨p, ds⟩ (by simp) with ⟨hnil, hp⟩ | ⟨hne, hawaits, hcounts⟩
  · dsimp only at hnil
    subst hnil
    rw [List.nil_append] at hone ⊢
    obtain ⟨rfl, rfl, hp'⟩ := h.undecided_next hp hn hq hone
    refine ⟨forall_replace h.calls (.inl ⟨rfl, hp'⟩), forall_replace h.checks hchecks, ?_⟩
    exact h.counted.imp_right (unsettled_replace (c := ⟨p, []⟩) fun _ hd => hd)
  · obtain ⟨rfl, hawaits', -⟩ := hawaits.next hn
    obtain ⟨hv, hcounts', -⟩ := hcounts.next hn
    rw [List.append_nil]
    refine ⟨forall_replace h.calls (.inr ⟨hne, hawaits', hcounts'⟩),
      forall_replace h.checks hchecks, ?_⟩
    exact h.counted.imp (hv k) (unsettled_replace (c := ⟨p, ds⟩) fun _ hd => hd)

/-- A step of a check. -/
theorem GuessInv.check {k : ℕ} {pre post : List (Call World Err UserProfile)}
    {p : Promise UserProfile} {ds es born : List (Detached World Err)} {β : Type}
    {d d' : Async World Err β} {v : World}
    (h : GuessInv P userId issued k (pre ++ ⟨p, ds ++ ⟨β, d⟩ :: es⟩ :: post, w))
    (hn : d.next w = some (d', born, v)) :
    GuessInv P userId issued k (pre ++ ⟨p, ds ++ ⟨β, d'⟩ :: (es ++ born)⟩ :: post, v) := by
  have hc := h.checks ⟨p, ds ++ ⟨β, d⟩ :: es⟩ (by simp)
  rcases hc ⟨β, d⟩ (by simp) with hset | hends
  · rw [hset.next w] at hn
    cases hn
  obtain ⟨rfl, hd'⟩ := hends.next hn
  rw [List.append_nil]
  refine ⟨forall_replace h.calls ?_, forall_replace h.checks ?_, ?_⟩
  · rcases h.calls ⟨p, ds ++ ⟨β, d⟩ :: es⟩ (by simp) with ⟨hnil, -⟩ | ⟨-, hdec⟩
    · simp at hnil
    · exact .inr ⟨by simp, hdec⟩
  · refine forall_replace hc ?_
    rcases hd' with hd' | ⟨hd', -⟩
    · exact .inr hd'
    · exact .inl hd'
  · rcases hd' with hd' | ⟨-, hcount⟩
    · exact .inr ⟨_, List.mem_append_right _ List.mem_cons_self, ⟨β, d'⟩, by simp,
        hd'.not_settled⟩
    · exact .inl hcount

/-- A clear call that has compared nothing holds no token. -/
theorem Undecided.of_clear {k j : ℕ} {c : Call World Err UserProfile} (hnil : c.detached = [])
    (h : Undecided P userId issued k c.main) (hclear : Clear P userId c) :
    Undecided P userId issued j c.main := by
  rcases hclear with ⟨-, ⟨code, hc⟩ | ⟨r, hr⟩⟩ | ⟨hne, -⟩
  · exact hc ▸ .reading code
  · rw [hr] at h ⊢
    generalize hp : (settled r : Promise UserProfile) = p at h
    cases h with
    | reading code => exact .reading code
    | checking hne _ =>
      rw [checkToken_act hne] at hp
      cases r <;> cases hp
    | comparing => cases r <;> cases hp
    | rejected e => exact .rejected e
  · exact absurd hnil hne

section Compare
variable {k : ℕ} {pre post : List (Call World Err UserProfile)} {p next : Promise UserProfile}
  {child : Async World Err Unit}

/-- The right code: nothing is counted, the check is settled from the start. -/
theorem GuessInv.compare_right (h : GuessInv P userId issued k (pre ++ ⟨p, []⟩ :: post, w))
    (hnext : Decided P userId issued next) (hchild : child.Settled) :
    GuessInv P userId issued k (pre ++ ⟨next, [⟨Unit, child⟩]⟩ :: post, w) := by
  refine ⟨forall_replace h.calls (.inr ⟨by simp, hnext⟩), forall_replace h.checks ?_, ?_⟩
  · simpa using Or.inl hchild
  · exact h.counted.imp_right (unsettled_replace fun _ hd => by cases hd)

/-- A wrong one: its check is on its way, and every other call is clear. -/
theorem GuessInv.compare_wrong {j : ℕ}
    (h : GuessInv P userId issued k (pre ++ ⟨p, []⟩ :: post, w))
    (hnext : Decided P userId issued next) (hchild : child.Ends (Counted P userId issued j))
    (hone : OneAtATime P userId (pre ++ ⟨next, [⟨Unit, child⟩]⟩ :: post)) :
    GuessInv P userId issued j (pre ++ ⟨next, [⟨Unit, child⟩]⟩ :: post, w) := by
  have hclear := hone.others fun hc => hchild.not_settled (hc.settled ⟨Unit, child⟩ (by simp))
  refine ⟨forall_middle (fun c hc => ?_) (.inr ⟨by simp, hnext⟩),
    forall_middle (fun c hc d hd => .inl ((hclear c hc).settled d hd)) ?_, ?_⟩
  · rcases h.calls c (mem_middle.mpr (.inr hc)) with ⟨hnil, hund⟩ | hdec
    · exact .inl ⟨hnil, hund.of_clear hnil (hclear c hc)⟩
    · exact .inr hdec
  · simpa using Or.inr hchild
  · exact .inr ⟨_, mem_middle.mpr (.inl rfl), ⟨Unit, child⟩, by simp, hchild.not_settled⟩

end Compare

/-- A comparison: there were attempts left, and if the code is wrong it is being counted. -/
theorem GuessInv.compare {codes : List String} {x y : GuessPool} {code : String}
    (h : GuessInv P userId issued (wrongCodes issued codes) x)
    (hs : Compares P userId issued code x y) (hone : OneAtATime P userId y.1) :
    wrongCodes issued codes < maxVerificationAttempts ∧
      GuessInv P userId issued (wrongCodes issued (code :: codes)) y := by
  obtain ⟨pre, post, ds, t, k, v, hp, hcode, rfl, rfl⟩ := hs
  have hcall := h.calls ⟨.spawn (verifyEmailChangeCode P userId code t) k, ds⟩ (by simp)
  rcases hcall with ⟨hnil, hund⟩ | ⟨-, hdec⟩
  swap
  · exact hdec.1.elim
  dsimp only at hnil hund
  subst hnil
  generalize hspawn : (Async.spawn (verifyEmailChangeCode P userId code t) k) = p at hund
  cases hund with
  | reading c => rw [verifyEmailChange_eq] at hspawn; cases hspawn
  | checking hne _ => rw [checkToken_act hne] at hspawn; cases hspawn
  | rejected e => cases hspawn
  | @comparing code' newEmail t' n iat hp' hc' hn' hk' hmax hiat' =>
    simp only [spawn.injEq, heq_eq_eq, true_and] at hspawn
    obtain ⟨hchild, rfl⟩ := hspawn
    refine ⟨by omega, ?_⟩
    have hafter : Decided P userId issued (applyEmailChange userId newEmail) :=
      ⟨awaits_applyEmailChange userId newEmail, guarantees_applyEmailChange userId newEmail⟩
    by_cases hright : code = issued
    · have hset := verifyEmailChangeCode_settled P userId (.inr (hright ▸ hcode))
      have hsame : wrongCodes issued (code :: codes) = wrongCodes issued codes := by
        simp [wrongCodes, hright]
      rw [hsame]
      exact h.compare_right hafter hset
    · have hmore : wrongCodes issued (code :: codes) = wrongCodes issued codes + 1 := by
        simp [wrongCodes, hright]
      have hwrong' : t'.code ≠ some code' := by
        intro heq
        have hset := verifyEmailChangeCode_settled P userId (t := t') (.inr heq)
        rw [← hchild, verifyEmailChangeCode_wrong hp (by simpa [hcode] using Ne.symm hright)]
          at hset
        obtain ⟨r, hr⟩ := hset
        cases r <;> cases hr
      have hends : (verifyEmailChangeCode P userId code t).Ends
          (Counted P userId issued (wrongCodes issued (code :: codes))) := by
        rw [hchild]
        exact ends_verifyEmailChangeCode hp' hwrong' hc' hn' (by omega) hiat'
      exact h.compare_wrong hafter hends hone

theorem GuessRun.inv {codes : List String} {x : GuessPool}
    (h : GuessRun P userId issued (OneAtATime P userId) w codes x)
    (hw : Counted P userId issued 0 w) :
    GuessInv P userId issued (wrongCodes issued codes) x ∧
      ∀ code before, code :: before <:+ codes →
        wrongCodes issued before < maxVerificationAttempts := by
  induction h with
  | start => exact ⟨⟨by simp, by simp, .inl hw⟩, by simp⟩
  | @silent codes x y _ hs hq hone ih =>
    refine ⟨?_, ih.2⟩
    have hinv := ih.1
    cases hs with
    | @call pre post c c' s v hstep =>
      cases hstep with
      | @main p p' ds born _ _ hn =>
        refine hinv.main hn (fun code t k hp hcode heq => ?_) hone
        subst heq
        cases hn
        exact hq code ⟨pre, post, ds, t, _, _, hp, hcode, rfl, rfl⟩
      | detached hn => exact hinv.check hn
    | @arrive cs p s hp =>
      obtain ⟨code, rfl⟩ := hp
      have hnew : ∀ c ∈ cs ++ [⟨verifyEmailChange P userId code, []⟩],
          c ∈ cs ∨ c = ⟨verifyEmailChange P userId code, []⟩ := by
        intro c hc
        simpa using hc
      refine ⟨fun c hc => ?_, fun c hc => ?_, ?_⟩
      · rcases hnew c hc with hc | rfl
        · exact hinv.calls c hc
        · exact .inl ⟨rfl, .reading code⟩
      · rcases hnew c hc with hc | rfl
        · exact hinv.checks c hc
        · simp
      · rcases hinv.counted with hcount | ⟨c, hc, hd⟩
        · exact .inl hcount
        · exact .inr ⟨c, by simp [hc], hd⟩
    | tick htick =>
      cases htick with
      | tick _ => exact ⟨hinv.calls, hinv.checks, hinv.counted⟩
  | @compare codes x y code _ hs hone ih =>
    obtain ⟨hlt, hinv⟩ := ih.1.compare hs hone
    refine ⟨hinv, fun c before hsuf => ?_⟩
    rcases List.suffix_cons_iff.mp hsuf with heq | hsuf
    · obtain ⟨rfl, rfl⟩ := List.cons.inj heq
      exact hlt
    · exact ih.2 c before hsuf

theorem Undecided.of_settled {k : ℕ} {p : Promise UserProfile}
    (h : Undecided P userId issued k p) (hset : p.Settled) : ∃ e, p = .throw e := by
  obtain ⟨r, rfl⟩ := hset
  generalize hp : (settled r : Promise UserProfile) = p at h
  cases h with
  | reading code =>
    rw [verifyEmailChange_eq] at hp
    cases r <;> cases hp
  | checking hne _ =>
    rw [checkToken_act hne] at hp
    cases r <;> cases hp
  | comparing => cases r <;> cases hp
  | rejected e => exact ⟨e, rfl⟩

theorem counted_issueCode {w₀ : World} {u : User} {newEmail : String}
    (hcode : codeOf w₀.env = issued) :
    Counted P u.id issued 0 (w₀.issueCode P u newEmail) := by
  intro v hv hid token htoken
  rw [issueCode_users] at hv
  rcases Rows.mem_update.mp hv with ⟨y, -, -, rfl⟩ | ⟨-, hne⟩
  · cases htoken
    have hpayload :
        (changePayload u.id newEmail (codeOf w₀.env) w₀.env.now).code = some issued := by
      simp [changePayload, stamp, changeInput, hcode]
    exact ⟨_, 0, _, P.jwt.decode_sign _, hpayload, rfl, Nat.le_refl _, rfl⟩
  · exact absurd hid hne

/-- With one call at a time between reading the token and storing the raised count, no code is
compared after five wrong ones. -/
theorem guess_limit {P : Packages} {userId newEmail fullName issued : String} {w₀ w : World}
    {r : Except Err Unit} {mail : MailReply} {codes : List String} {x : GuessPool}
    (hreq : (requestEmailChange P userId newEmail).run w₀ = (r, w))
    (hmail : w.outbox = w₀.outbox ++ [(.emailChangeCode newEmail fullName issued, mail)])
    (h : GuessRun P userId issued (OneAtATime P userId) w codes x) : GuessLimit issued codes x := by
  have hw : Counted P userId issued 0 w := by
    rcases run_requestEmailChange_cases hreq with ⟨-, rfl⟩ | ⟨u, hu, -, -, -, rfl⟩
    · simp at hmail
    · rw [issueCode_outbox] at hmail
      obtain ⟨⟨-, hcode⟩, -⟩ : (u.fullName = fullName ∧ codeOf w₀.env = issued) ∧
          w₀.env.mail = mail := by simpa using hmail
      exact Rows.lookup_key hu ▸ counted_issueCode hcode
  obtain ⟨hinv, hcompared⟩ := h.inv hw
  refine ⟨hcompared, ?_, fun c hc hnil hset => ?_⟩
  · cases codes with
    | nil => simp [wrongCodes]
    | cons code before =>
      have hlt := hcompared code before (List.suffix_refl _)
      simp only [wrongCodes, List.countP_cons] at hlt ⊢
      split <;> omega
  · rcases hinv.calls c hc with ⟨-, hund⟩ | ⟨hne, -⟩
    · exact hund.of_settled hset
    · exact absurd hnil hne

/-- How many checks were started. -/
def startedChecks (x : GuessPool) : ℕ := (x.1.flatMap Call.detached).length

theorem Compares.startedChecks {code : String} {x y : GuessPool}
    (h : Compares P userId issued code x y) : startedChecks y = startedChecks x + 1 := by
  obtain ⟨pre, post, ds, t, k, v, -, -, rfl, rfl⟩ := h
  simp [CodebaseTrpc.startedChecks]
  omega

/-- A step that starts no check compares nothing. -/
theorem GuessRun.quiet {codes : List String} {x y : GuessPool}
    (h : GuessRun P userId issued C w codes x)
    (hs : Pool.Step (Guess P userId) Ticks x y) (hsame : startedChecks y = startedChecks x)
    (hC : C y.1) : GuessRun P userId issued C w codes y := by
  refine .silent h hs (fun code hc => ?_) hC
  have hmore := hc.startedChecks
  omega

/-- While a change is pending, any number of codes can be compared: every call reads the token
before the first check has stored its count. -/
theorem exists_guesses {u : User} {token newEmail : String} {t : Token}
    (hu : Rows.lookup User.id userId w.db.users = some u) (hp : PendingChange P w u token t)
    (hready : Ready t newEmail) (hcode : t.code = some issued) (codes : List String)
    (hC : ∀ cs : List (Call World Err UserProfile), cs.length ≤ codes.length → C cs) :
    ∃ cs, cs.length = codes.length ∧ GuessRun P userId issued C w codes (cs, w) := by
  induction codes with
  | nil => exact ⟨[], rfl, .start⟩
  | cons code codes ih =>
    obtain ⟨cs, hlen, ih⟩ := ih fun ds hds => hC ds (Nat.le_succ_of_le hds)
    have hC' : ∀ c, C (cs ++ [c]) := fun c => hC _ (by simp [hlen])
    obtain ⟨hne, hlive, hdec⟩ := hp.opens
    have hread : (verifyEmailChange P userId code).next w =
        some (checkToken P userId code token, [], w) := by
      rw [verifyEmailChange_eq]
      simp only [getUserById, select, bind_stmt, bind_pure_left, next, hu, hp.stored,
        truthyText_of_ne hne]
      rfl
    have hcheck : (checkToken P userId code token).next w =
        some (.spawn (verifyEmailChangeCode P userId code t) (applyEmailChange userId newEmail),
          [], w) := by
      rw [checkToken_act hne]
      simp only [next, hlive, if_true, bind_pure_left, decodeJwtToken, hne, if_false, hdec,
        hp.purpose, ne_eq, not_true_eq_false, checkedChange_of_ready hready]
      rfl
    have h₁ := ih.quiet (.arrive ⟨code, rfl⟩) (by simp [startedChecks]) (hC' _)
    have h₂ := h₁.quiet (Pool.Step.call_at cs [] hread) (by simp [startedChecks]) (hC' _)
    have h₃ := h₂.quiet (Pool.Step.call_at cs [] hcheck) (by simp [startedChecks]) (hC' _)
    have h₄ := h₃.compare ⟨cs, [], [], t, _, w, hp.purpose, hcode, rfl, rfl⟩ (hC' _)
    exact ⟨_, by simp [hlen], h₄⟩

end

namespace Sample

/-- Ann has asked for a change of her email. -/
def codeSent : Except Err Unit × World := (requestEmailChange packages "u1" "new@mail").run signedIn

def codeSentRow : User := codeSent.2.db.users.headD default
def sentToken : String := codeSentRow.emailVerificationToken.getD ""
def sentPayload : Token := changePayload "u1" "new@mail" "123456" env.now

set_option maxRecDepth 10000 in
theorem codeSent_facts : Rows.lookup User.id "u1" codeSent.2.db.users = some codeSentRow ∧
    codeSentRow.emailVerificationToken = some sentToken ∧ sentToken ≠ "" ∧
    Live packages sentToken codeSent.2.env.now ∧ decode sentToken = some sentPayload ∧
    codeSent.2.outbox = signedIn.outbox ++
      [(.emailChangeCode "new@mail" "Ann Lee" "123456", .accepted)] := by decide +kernel

theorem pendingChange_codeSent :
    PendingChange packages codeSent.2 codeSentRow sentToken sentPayload := by
  obtain ⟨-, hstored, hne, hlive, hdec, -⟩ := codeSent_facts
  exact ⟨hstored, ⟨hne, hlive, hdec⟩, rfl⟩

theorem ready_sentPayload : Ready sentPayload "new@mail" :=
  ⟨⟨"123456", rfl, by decide⟩, rfl, by decide, 0, rfl, by decide⟩

end Sample

/-- One wrong code, tried alone. -/
theorem guess_limit_alone : ∃ x, GuessRun Sample.packages "u1" "123456"
    (OneAtATime Sample.packages "u1") Sample.codeSent.2 ["000000"] x ∧
      GuessLimit "123456" ["000000"] x := by
  obtain ⟨cs, -, hrun⟩ := exists_guesses (C := OneAtATime Sample.packages "u1")
    Sample.codeSent_facts.1 Sample.pendingChange_codeSent Sample.ready_sentPayload rfl ["000000"]
    (by
      rintro (_ | ⟨c, _ | ⟨d, cs⟩⟩) hlen
      · exact .nil
      · exact List.pairwise_singleton _ _
      · simp at hlen)
  exact ⟨_, hrun, guess_limit (r := Sample.codeSent.1) rfl Sample.codeSent_facts.2.2.2.2.2 hrun⟩

/-- Without that condition, six calls that overlap compare six wrong codes. -/
theorem guess_limit_overlapping : ¬ ∀ (P : Packages) (userId newEmail fullName issued : String)
    (w₀ w : World) (r : Except Err Unit) (mail : MailReply) (codes : List String) (x : GuessPool),
    (requestEmailChange P userId newEmail).run w₀ = (r, w) →
    w.outbox = w₀.outbox ++ [(.emailChangeCode newEmail fullName issued, mail)] →
    GuessRun P userId issued (fun _ => True) w codes x → GuessLimit issued codes x := by
  intro h
  obtain ⟨cs, -, hrun⟩ := exists_guesses (C := fun _ => True) Sample.codeSent_facts.1
    Sample.pendingChange_codeSent Sample.ready_sentPayload rfl
    ["000001", "000002", "000003", "000004", "000005", "000006"] fun _ _ => trivial
  have hbound := (h _ _ _ _ _ _ _ Sample.codeSent.1 _ _ _ rfl
    Sample.codeSent_facts.2.2.2.2.2 hrun).bound
  exact absurd hbound (by decide)

end CodebaseTrpc
