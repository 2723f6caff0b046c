import CodebaseTrpc.Invariants.Billings
import CodebaseTrpc.Invariants.Writers
import CodebaseTrpc.Spec.Server

/-! From a paid invoice to the pages that show it: as long as no further event arrives, the
billing procedures answer with the purchase, whatever else is requested meanwhile. -/
namespace CodebaseTrpc
variable {P : Packages} {v w w' : World} {user x : User} {b : Billing}

/-- The price of the product that a billing row names. -/
def shownPrice (db : Db) (b : Billing) : Option String :=
  (Rows.lookup Product.id b.productId db.products).bind Product.externalPriceId

/-- The one row that the paid invoice leaves to its user. -/
structure Purchased (db : Db) (input : UpdateUserBillingInput) (customer : String) (userId : String)
    (b : Billing) : Prop where
  onFile : b ∈ db.billings
  only : ∀ y ∈ db.billings, y.userId = userId ↔ y = b
  productId : b.productId = input.productId
  externalSubscriptionId : b.externalSubscriptionId = input.externalSubscriptionId
  externalCustomerId : b.externalCustomerId = customer
  status : b.status = "active"
  expiresAt : b.expiresAt = unixTimestampToDate input.expiresAt

theorem Purchased.lookup {db : Db} {input : UpdateUserBillingInput} {c userId : String}
    (h : Purchased db input c userId b) :
    Rows.lookup Billing.userId userId db.billings = some b := by
  obtain ⟨y, hy⟩ := Rows.exists_lookup Billing.userId h.onFile ((h.only b h.onFile).mpr rfl)
  rw [hy, (h.only y (Rows.lookup_mem hy)).mp (Rows.lookup_key hy)]

theorem run_protected {α : Type} {auth : Option String} {f : User → Promise α}
    (ha : Authenticates P w auth x) : ((authMiddleware P auth).bind f).run w = (f x).run w :=
  Async.run_bind_ok (run_authMiddleware_ok ha)

theorem run_getUserBilling_of_row
    (hb : Rows.lookup Billing.userId x.id w.db.billings = some b) (hne : b.productId ≠ "") :
    (getUserBilling x).run w =
      (.ok ⟨decide (b.status = "active"), some b, shownPrice w.db b⟩, w) := by
  simp only [getUserBilling, Async.bind_eq]
  rw [Async.run_bind_ok (run_getBillingByUserId ..), hb]
  simp only [Option.map_some, truthyText_of_ne hne]
  exact Async.run_bind_ok (a := Rows.lookup Product.id b.productId w.db.products) (t := w) rfl

/-- The portal for the customer on file, if Stripe opens it. -/
theorem run_createCustomerPortalSession_of_row {returnUrl : String}
    (hb : Rows.lookup Billing.userId x.id w.db.billings = some b)
    (hne : b.externalCustomerId ≠ "") (hstripe : w.env.stripe = .created) :
    (createCustomerPortalSession returnUrl x).run w =
      (.ok w.env.portalUrl,
        { w with portals := w.portals ++ [⟨b.externalCustomerId, returnUrl⟩] }) := by
  simp only [createCustomerPortalSession, Async.bind_eq]
  rw [Async.run_bind_ok (run_getBillingByUserId ..), hb]
  dsimp only
  rw [if_neg hne, Async.run_act, hstripe]
  rfl

/-- A checkout for a plan on sale, with the customer on file, if Stripe makes the session. -/
theorem run_createCheckoutSession_of_row {input : CreateCheckoutSessionInput} {p : Product}
    {price product url : String} (hp : Rows.lookup Product.externalPriceId (some input.priceId)
      w.db.products = some p) (hprice : truthyText p.externalPriceId = some price)
    (hproduct : truthyText p.externalProductId = some product)
    (hb : Rows.lookup Billing.userId x.id w.db.billings = some b)
    (hne : b.externalCustomerId ≠ "") (hstripe : w.env.stripe = .created)
    (hurl : truthyText w.env.sessionUrl = some url) :
    (createCheckoutSession input x).run w = (.ok (w.env.sessionId, url), { w with
      checkouts := w.checkouts ++ [{ sessionId := w.env.sessionId
                                     customer := some b.externalCustomerId
                                     customerEmail := none
                                     priceId := price
                                     productId := p.id }] }) := by
  rw [createCheckoutSession, Async.bind_eq, Async.run_bind_ok (run_getProductByExternalPriceId ..),
    hp]
  dsimp only
  rw [hprice, hproduct]
  dsimp only
  rw [Async.bind_eq, Async.run_bind_ok (run_getBillingByUserId ..), hb]
  simp only [Option.map_some, truthyText_of_ne hne, Async.run_act, hstripe, hurl]
  rfl

theorem Paid.purchased {input : UpdateUserBillingInput} {c : String} {db : Db}
    (hunique : UniqueOwners w.db.billings)
    (h : Paid w input user (Rows.lookup Billing.userId user.id w.db.billings) c db) :
    ∃ b, Purchased db input c user.id b := by
  have hb := h.billings
  cases hl : Rows.lookup Billing.userId user.id w.db.billings with
  | none =>
    rw [hl] at hb
    dsimp only at hb
    refine ⟨newBilling input c user.id w.env, by simp [hb], fun y hy => ⟨fun hown => ?_, ?_⟩,
      rfl, rfl, rfl, rfl, rfl⟩
    · rw [hb, List.mem_append, List.mem_singleton] at hy
      exact hy.resolve_left fun hold => Rows.lookup_eq_none.mp hl y hold hown
    · rintro rfl
      rfl
  | some b =>
    rw [hl] at hb
    dsimp only at hb
    have hmem := Rows.lookup_mem hl
    refine ⟨paidBilling input c w.env.now b, hb ▸ Rows.mem_update_self Billing.id _ hmem,
      fun y hy => ⟨fun hown => ?_, ?_⟩, rfl, rfl, rfl, rfl, rfl⟩
    · -- the rows of the user were `b` alone
      have hb' : ∀ x ∈ w.db.billings, x.userId = user.id → x = b := fun x hx hxu =>
        List.inj_on_of_nodup_map hunique hx hmem (hxu.trans (Rows.lookup_key hl).symm)
      rw [hb] at hy
      rcases Rows.mem_update.mp hy with ⟨x, hx, hid, rfl⟩ | ⟨hx, hid⟩
      · rw [hb' x hx hown]
      · exact absurd (congrArg Billing.id (hb' y hx hown)) hid
    · rintro rfl
      have hown : b.userId = user.id := Rows.lookup_key hl
      exact hown

/-- A purchase is what the tables say until an event writes them again. -/
theorem Purchased.since {A : Request → Prop} {input : UpdateUserBillingInput} {c userId : String}
    {calls : List (Async.Call World Err Reply)} (h : Purchased w.db input c userId b)
    (htrx : w.trx = none) (hsteps : Async.Pool.Steps (Admitted P A) Ticks ([], w) (calls, w'))
    (hquiet : ∀ request, A request → ¬ request.Bills) :
    Purchased w'.db input c userId b ∧ w'.db.products = w.db.products := by
  have hconfined := confined_of_steps htrx hsteps
  have hsame : w'.db.billings = w.db.billings := hconfined.billings_eq fun hbills => by
    obtain ⟨request, hA, hb⟩ := hbills
    exact hquiet request hA hb
  exact ⟨{ h with onFile := hsame ▸ h.onFile, only := hsame ▸ h.only }, hconfined.products⟩

/-- After a paid invoice for a user with one billing row at most, and whatever requests other than
events are served since: the billing page shows the purchase with its price, the portal that Stripe
opens is the customer's, and a new checkout goes to the same customer. -/
theorem purchase_shown {invoice : Invoice} {input : UpdateUserBillingInput} {customer : String}
    {reply : Except Err Reply} (htrx : v.trx = none) (hunique : UniqueOwners v.db.billings)
    (hfresh : ∀ b ∈ v.db.billings, b.id ≠ v.env.uuid)
    (hinput : paidInput v.db invoice = .ok (some input))
    (huser : Rows.lookup User.email input.userEmail v.db.users = some user)
    (hcustomer : input.externalCustomerId = some customer) (hne : customer ≠ "")
    (hfit : input.Fits customer)
    (hproduct : input.productId ≠ "")
    (hcall : (handle P (.webhook (.invoicePaid invoice))).Exec v reply w) :
    reply = .ok .success ∧ ∃ b, Purchased w.db input customer user.id b ∧
      ∀ A calls w', Async.Pool.Steps (Admitted P A) Ticks ([], w) (calls, w') →
        (∀ request, A request → ¬ request.Bills) →
        ∀ auth x, Authenticates P w' auth x → x.id = user.id →
          (handle P (.getUserBilling auth)).run w' =
            (.ok (.billing ⟨true, some b, shownPrice v.db b⟩), w') ∧
          (x.emailVerified = true → w'.env.stripe = .created → ∀ url, P.isUrl url = true →
            (handle P (.createCustomerPortalSession auth url)).run w' =
              (.ok (.portal w'.env.portalUrl),
                { w' with portals := w'.portals ++ [⟨customer, url⟩] })) ∧
          (x.emailVerified = true → w'.env.stripe = .created → ∀ order p price product url,
            createCheckoutSessionSchema P order →
            Rows.lookup Product.externalPriceId (some order.priceId) v.db.products = some p →
            truthyText p.externalPriceId = some price →
            truthyText p.externalProductId = some product →
            truthyText w'.env.sessionUrl = some url →
            (handle P (.createCheckoutSession auth order)).run w' =
              (.ok (.session w'.env.sessionId url), { w' with
                checkouts := w'.checkouts ++ [{ sessionId := w'.env.sessionId
                                                customer := some customer
                                                customerEmail := none
                                                priceId := price
                                                productId := p.id }] })) := by
  obtain ⟨db, hrun, hpaid⟩ := run_invoicePaid_ok htrx (fun _ => hfresh) hinput huser hcustomer hfit
  obtain ⟨hreply, rfl⟩ := exec_webhook_ok hrun hcall
  obtain ⟨b, hb⟩ := hpaid.purchased hunique
  refine ⟨hreply, b, hb, fun A calls w' hsteps hquiet auth x ha hx => ?_⟩
  obtain ⟨hb', hproducts⟩ := hb.since (w := { v with db }) htrx hsteps hquiet
  replace hproducts : w'.db.products = v.db.products := hproducts.trans hpaid.products
  have honFile : Rows.lookup Billing.userId x.id w'.db.billings = some b := hx ▸ hb'.lookup
  have hcust : b.externalCustomerId ≠ "" := hb.externalCustomerId ▸ hne
  refine ⟨?_, fun hverified hstripe url hurl => ?_, ?_⟩
  · have hshown : shownPrice w'.db b = shownPrice v.db b := by rw [shownPrice, hproducts]; rfl
    have hrun := run_getUserBilling_of_row honFile (hb.productId ▸ hproduct)
    rw [handle, Async.bind_eq, run_protected ha]
    refine (Async.run_bind_ok hrun).trans ?_
    rw [hshown, hb.status]
    rfl
  · rw [handle, Async.bind_eq, run_protected ha, verifiedEmailMiddleware, if_pos hverified]
    refine (Async.run_bind_ok (a := x) (t := w') rfl).trans ?_
    rw [validated, if_pos hurl]
    exact hb.externalCustomerId ▸
      Async.run_bind_ok (run_createCustomerPortalSession_of_row honFile hcust hstripe)
  · intro hverified hstripe order p price product url hschema hp hprice hprod hurl
    rw [handle, Async.bind_eq, run_protected ha, verifiedEmailMiddleware, if_pos hverified]
    refine (Async.run_bind_ok (a := x) (t := w') rfl).trans ?_
    rw [validated, if_pos hschema]
    exact hb.externalCustomerId ▸ Async.run_bind_ok
      (run_createCheckoutSession_of_row (hproducts ▸ hp) hprice hprod honFile hcust hstripe hurl)

namespace Sample

/-- Ann's address is verified and her checkout is made; the invoice is about to come. -/
def ordered : World := play packages start (purchase.take 4)

def orderPaid : World :=
  ((handle packages (.webhook (.invoicePaid paidInvoice))).run ordered).2

def paidFor : UpdateUserBillingInput where
  userEmail := "ann@mail"
  productId := pro.id
  externalCustomerId := some "cus_1"
  externalSubscriptionId := "sub_1"
  expiresAt := 1702592000

set_option maxRecDepth 10000 in
theorem orderPaid_facts : ordered.trx.isNone = true ∧ ordered.db.billings = [] ∧
    paidInput ordered.db paidInvoice = .ok (some paidFor) ∧
    (Rows.lookup User.email paidFor.userEmail ordered.db.users).map User.id = some "u1" ∧
    ((authMiddleware packages (some accessToken.text)).run
      (loginBegun orderPaid).2).1.toOption.map (fun x => (x.id, x.emailVerified)) =
        some ("u1", true) ∧
    (loginBegun orderPaid).2.env = env := by
  decide +kernel

end Sample

/-- Ann's page and her portal, with a login of hers under way since the invoice. -/
theorem purchase_shown_login : (∃ b price, b.status = "active" ∧
    (handle Sample.packages (.getUserBilling (some Sample.accessToken.text))).run
      (Sample.loginBegun Sample.orderPaid).2 =
      (.ok (.billing ⟨true, some b, price⟩), (Sample.loginBegun Sample.orderPaid).2)) ∧
    (handle Sample.packages (.createCustomerPortalSession (some Sample.accessToken.text)
      "https://back")).run (Sample.loginBegun Sample.orderPaid).2 =
      (.ok (.portal "https://portal"), { (Sample.loginBegun Sample.orderPaid).2 with
        portals := (Sample.loginBegun Sample.orderPaid).2.portals ++
          [⟨"cus_1", "https://back"⟩] }) := by
  obtain ⟨htrx, hbillings, hinput, huser, hauth, henv⟩ := Sample.orderPaid_facts
  obtain ⟨user, huser, hid⟩ := Option.map_eq_some_iff.mp huser
  obtain ⟨x, hx, hx'⟩ := Option.map_eq_some_iff.mp hauth
  obtain ⟨hxid, hverified⟩ := Prod.mk.inj hx'
  obtain ⟨-, b, hb, hshown⟩ := purchase_shown (Option.isNone_iff_eq_none.mp htrx)
    (by simp [UniqueOwners, hbillings]) (by simp [hbillings]) hinput huser rfl (by decide)
    (by decide) (by decide)
    (Async.exec_run (handle Sample.packages (.webhook (.invoicePaid Sample.paidInvoice)))
      Sample.ordered)
  have hquiet : ∀ request, Sample.onlyLogin request → ¬ request.Bills := by
    rintro _ rfl
    exact id
  obtain ⟨hpage, hportal, -⟩ := hshown Sample.onlyLogin _ _
    (Sample.steps_loginBegun Sample.orderPaid) hquiet _ x (authenticates_of_run hx)
    (hxid.trans hid.symm)
  have hopened := hportal hverified (by rw [henv]; rfl) "https://back" (by decide)
  exact ⟨⟨b, _, hb.status, hpage⟩, by simpa only [henv, Sample.env] using hopened⟩

end CodebaseTrpc
