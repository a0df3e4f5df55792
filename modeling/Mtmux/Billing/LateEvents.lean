import Mtmux.Billing.Subscriptions

/-! Events that come late. The row of an account is whatever the event processed last has made of it. -/
namespace Mtmux.Billing
open Machine List

abbrev MirrorEntry : Type := Machine.Entry BillingDb SubscriptionEvent Unit

/-- What the payment service knows of its subscriptions: whose they are, and when they began. -/
structure SubscriptionBook where
  account : String → String
  began : String → Nat

/-- The account under which an event is filed. -/
def BillingDb.filed (db : BillingDb) (data : SubscriptionData) : Option String :=
  (db.resolveUserId data).filter db.hasUser

section
variable (config : BillingConfig) (book : SubscriptionBook) (userId : String)

def Older (x : MirrorEntry) (row : SubscriptionRow) : Prop :=
  x.pre.subscriptions.get userId = some row ∧ row.plan = .pro ∧
    ∃ newer, row.dodoSubscriptionId = some newer ∧ book.began x.event.data.subscriptionId < book.began newer

/-- None of the account's events is later: its subscription is the newest, and of this it is the last. -/
def Newest (es : List SubscriptionEvent) (e : SubscriptionEvent) : Prop :=
  e ∈ es ∧ book.account e.data.subscriptionId = userId ∧ ∀ e' ∈ es,
    book.account e'.data.subscriptionId = userId →
      book.began e'.data.subscriptionId < book.began e.data.subscriptionId ∨
      book.began e'.data.subscriptionId = book.began e.data.subscriptionId ∧ e'.occurred ≤ e.occurred

/-- The plan in the account's row. -/
def BillingDb.mirroredPlan (db : BillingDb) : Option PlanId := (db.subscriptions.get userId).map (·.plan)

/-- A late event takes no paid plan away, and in the end the plan is that of the newest event. -/
structure KeepsNewest (db : BillingDb) (es : List SubscriptionEvent) : Prop where
  kept : ∀ x ∈ (mirrorMachine config db).trace es, ∀ row, Older book userId x row →
    BillingDb.mirroredPlan userId x.post = some row.plan
  converged : ∀ e, Newest book userId es e →
    BillingDb.mirroredPlan userId ((mirrorMachine config db).run es) = some (planOf config e.data)

def filedPlan (db : BillingDb) (es : List SubscriptionEvent) : Option PlanId :=
  match (((mirrorMachine config db).trace es).filter fun x =>
      decide (x.pre.filed x.event.data = some userId)).getLast? with
  | some x => some (planOf config x.event.data)
  | none => BillingDb.mirroredPlan userId db

structure FiledInOrder (db : BillingDb) (es : List SubscriptionEvent) : Prop where
  older : ∀ x ∈ (mirrorMachine config db).trace es, ∀ row, Older book userId x row →
    x.pre.filed x.event.data = some userId → planOf config x.event.data = .pro
  last : ∀ e, Newest book userId es e → filedPlan config userId db es = some (planOf config e.data)

end

variable {config : BillingConfig} {userId : String}

theorem hasUser_linkCustomer (db : BillingDb) (userId customerId other : String) :
    (db.linkCustomer userId customerId).hasUser other = db.hasUser other := by
  simp only [BillingDb.hasUser, BillingDb.linkCustomer, any_map]
  congr 1
  funext user
  dsimp only [Function.comp]
  split <;> rfl

/-- An event writes the row of the account under which it is filed, and no other. -/
theorem get_apply (db : BillingDb) (data : SubscriptionData) (u : String) :
    (db.apply config data).subscriptions.get u =
      if db.filed data = some u then
        some (BillingDb.mirrored (db.subscriptions.get u) data (planOf config data))
      else db.subscriptions.get u := by
  unfold BillingDb.apply BillingDb.filed
  cases db.resolveUserId data with
  | none => rfl
  | some id =>
    simp only [BillingDb.mirrorSubscription, hasUser_linkCustomer]
    by_cases huser : db.hasUser id = true
    · simp only [huser, if_true, Option.getD_some, Option.filter_some, Option.some.injEq]
      change (db.subscriptions.set id _).get u = _
      rw [OrderedMap.get_set]
      by_cases hid : id = u
      · subst hid
        simp [BillingDb.linkCustomer]
      · simp [hid, Ne.symm hid]
    · have hnone : (some id).filter db.hasUser = none := by
        rw [Option.filter_some, if_neg huser]
      rw [if_neg huser, hnone]
      rfl

theorem mirroredPlan_apply (db : BillingDb) (data : SubscriptionData) :
    BillingDb.mirroredPlan userId (db.apply config data) =
      if db.filed data = some userId then some (planOf config data) else BillingDb.mirroredPlan userId db := by
  unfold BillingDb.mirroredPlan
  rw [get_apply]
  split
  · rfl
  · rfl

theorem mirroredPlan_run (db : BillingDb) (es : List SubscriptionEvent) :
    BillingDb.mirroredPlan userId ((mirrorMachine config db).run es) = filedPlan config userId db es := by
  induction es using List.reverseRecOn with
  | nil => rfl
  | append_singleton es e ih =>
    rw [run_snoc]
    change BillingDb.mirroredPlan userId (BillingDb.apply config _ e.data) = _
    rw [mirroredPlan_apply, filedPlan, trace_snoc, filter_append]
    by_cases hfiled : ((mirrorMachine config db).run es).filed e.data = some userId
    · rw [if_pos hfiled]
      simp [Machine.entry, hfiled]
    · rw [if_neg hfiled, ih]
      simp [Machine.entry, hfiled, filedPlan]

/-- Late events do no harm just when what is filed is filed in order. -/
theorem late_events_keep (config : BillingConfig) (book : SubscriptionBook) (userId : String) (db : BillingDb)
    (es : List SubscriptionEvent) : KeepsNewest config book userId db es ↔ FiledInOrder config book userId db es := by
  have hstep : ∀ x ∈ (mirrorMachine config db).trace es, x.post = x.pre.apply config x.event.data := by
    intro x hx
    obtain ⟨before, e, after, -, rfl⟩ := ((mirrorMachine config db).mem_trace es x).1 hx
    rfl
  constructor
  · intro h
    refine ⟨?_, ?_⟩
    · intro x hx row holder hfiled
      have hkept := h.kept x hx row holder
      rw [hstep x hx, mirroredPlan_apply, if_pos hfiled, holder.2.1] at hkept
      exact Option.some.inj hkept
    · intro e he
      rw [← mirroredPlan_run]
      exact h.converged e he
  · intro h
    refine ⟨?_, ?_⟩
    · intro x hx row holder
      rw [hstep x hx, mirroredPlan_apply]
      by_cases hfiled : x.pre.filed x.event.data = some userId
      · rw [if_pos hfiled, h.older x hx row holder hfiled, holder.2.1]
      · rw [if_neg hfiled, BillingDb.mirroredPlan, holder.1]
        rfl
    · intro e he
      rw [mirroredPlan_run]
      exact h.last e he

/-- A customer cancels one subscription and buys another; the news of the end of the first comes last. -/
def aConfig : BillingConfig := ⟨some "monthly", some "yearly"⟩
def aBook : SubscriptionBook := ⟨fun _ => "user", fun id => if id = "second" then 1 else 0⟩
def aDb : BillingDb := ⟨[⟨"user", "user@example", none⟩], .empty⟩

def aboutSubscription (id : String) (status : SubscriptionStatus) : SubscriptionData :=
  ⟨id, "monthly", status, none, none, some "user", "customer", none⟩

def lateEnd : List SubscriptionEvent :=
  [⟨aboutSubscription "first" .active, 0⟩, ⟨aboutSubscription "second" .active, 2⟩,
    ⟨aboutSubscription "first" .cancelled, 1⟩]

/-- The account that pays is put on the free plan. -/
theorem not_late_events_keep : ¬ ∀ config book userId db es, KeepsNewest config book userId db es := by
  intro h
  have hconverged := (h aConfig aBook "user" aDb lateEnd).converged ⟨aboutSubscription "second" .active, 2⟩
  have hnewest : Newest aBook "user" lateEnd ⟨aboutSubscription "second" .active, 2⟩ := by
    refine ⟨by simp [lateEnd], rfl, ?_⟩
    intro e' he' _
    simp only [lateEnd, mem_cons, not_mem_nil, or_false] at he'
    obtain rfl | rfl | rfl := he'
    · exact .inl (by decide)
    · exact .inr ⟨rfl, Nat.le_refl _⟩
    · exact .inl (by decide)
  have hfree : BillingDb.mirroredPlan "user" ((mirrorMachine aConfig aDb).run lateEnd) = some .free := by
    decide +kernel
  rw [hconverged hnewest] at hfree
  revert hfree
  decide

end Mtmux.Billing
