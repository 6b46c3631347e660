import PicoRadio.NetworkTables.Server

/-!
# The two tests whether a name is subscribed to

`isSubscribed` exists twice. The overload for one subscription refreshes the meta topics, the one
for a map of subscriptions decides what is announced, and repeats the loop over the patterns. On
maps without null pointers the two agree, in whatever order the map is traversed, and neither lets
a pattern without a leading `$` match the name of a meta topic.
-/

namespace NetworkTables

variable {sub : Subscription} {name : Str} {requireNotTopicsOnly : Bool}

/-- A subscription of the map that matches the name by itself, and has not asked for topics only if
that is required. -/
def Matching (subscriptions : AList fun _ : Int32 ↦ Option Subscription) (name : Str)
    (requireNotTopicsOnly : Bool) (sub : Subscription) : Prop :=
  (∃ uid, subscriptions.lookup uid = some (some sub)) ∧
    (requireNotTopicsOnly → ¬sub.options.topicsonly) ∧ sub.isSubscribed name

/-- The subscription without the patterns that are for ordinary topics. -/
def Subscription.metaOnly (sub : Subscription) : Subscription :=
  { sub with topics := sub.topics.filter (·.isMeta) }

theorem Subscription.covers_iff :
    sub.covers name requireNotTopicsOnly ↔
      (requireNotTopicsOnly → ¬sub.options.topicsonly) ∧ sub.isSubscribed name := by
  rw [covers, Bool.and_eq_true, Bool.or_eq_true, Bool.not_eq_true', Bool.not_eq_true',
    ← Bool.not_eq_true, ← Bool.not_eq_true, imp_iff_not_or]

/-- A name that starts with `$` is equal only to patterns that do, and the prefix mode asks for the
sign itself. -/
theorem Subscription.isSubscribed_metaOnly (hmeta : name.isMeta) :
    sub.metaOnly.isSubscribed name = sub.isSubscribed name := by
  rw [isSubscribed, isSubscribed, metaOnly, List.any_filter]
  refine congrArg sub.topics.any (funext fun top ↦ ?_)
  dsimp only
  rw [if_pos hmeta]
  cases htop : top.isMeta with
  | true => exact Bool.true_and _
  | false =>
    -- without the sign the pattern matches in neither mode
    rw [Bool.false_and, Bool.false_and]
    split
    · rfl
    · rw [eq_comm, beq_eq_false_iff_ne]
      rintro rfl
      rw [hmeta] at htop
      exact Bool.noConfusion htop

/-- **The two overloads agree**: without null pointers the search of the map finds a subscription
if there is one that matches by itself, and what it finds is one. No pattern that does not start
with `$` has a part in matching a name that does. -/
theorem isSubscribed_agree (env : Env)
    {subscriptions : AList fun _ : Int32 ↦ Option Subscription}
    (hnull : ∀ uid, subscriptions.lookup uid ≠ some none) (name : Str)
    (requireNotTopicsOnly : Bool) :
    (∃ out_subscription,
      isSubscribed env subscriptions name requireNotTopicsOnly = .ok out_subscription ∧
      (out_subscription.isSome ↔
        ∃ sub, Matching subscriptions name requireNotTopicsOnly sub) ∧
      ∀ sub, out_subscription = some sub →
        Matching subscriptions name requireNotTopicsOnly sub) ∧
    ∀ sub : Subscription, name.isMeta →
      sub.metaOnly.isSubscribed name = sub.isSubscribed name := by
  refine ⟨?_, fun sub ↦ Subscription.isSubscribed_metaOnly⟩
  have hends := isSubscribed_ends env subscriptions name requireNotTopicsOnly
  cases hfound : isSubscribed env subscriptions name requireNotTopicsOnly with
  | error e =>
    rw [hfound] at hends
    obtain ⟨-, uid, huid⟩ := hends
    exact absurd huid (hnull uid)
  | ok out_subscription =>
    rw [hfound] at hends
    obtain ⟨hsome, hnone⟩ := hends
    have hmatching (sub : Subscription) (h : out_subscription = some sub) :
        Matching subscriptions name requireNotTopicsOnly sub :=
      ⟨(hsome sub h).1, Subscription.covers_iff.mp (hsome sub h).2⟩
    refine ⟨out_subscription, rfl, ⟨fun h ↦ ?_, fun h ↦ ?_⟩, hmatching⟩
    · obtain ⟨sub, h⟩ := Option.isSome_iff_exists.mp h
      exact ⟨sub, hmatching sub h⟩
    · obtain ⟨sub, ⟨uid, huid⟩, hsub⟩ := h
      rw [← Option.ne_none_iff_isSome]
      exact fun h ↦ hnone h uid sub huid (Subscription.covers_iff.mpr hsub)

/-- A subscription of `/a` with its values. -/
def sampleSubscription : Subscription :=
  ⟨2, [ascii "/a"], .DEFAULT⟩

/-- Before it stands one of all topics without their values. -/
def sampleSubscriptions : AList fun _ : Int32 ↦ Option Subscription :=
  (AList.insert (1 : Int32) (some ⟨1, [[]], ⟨100, false, true, true⟩⟩) ∅).insert 2
    (some sampleSubscription)

/-- The search passes over the subscription that is for topics only. -/
theorem isSubscribed_agree_sample :
    ∃ sub, isSubscribed {} sampleSubscriptions (ascii "/a") true = .ok (some sub) ∧
      sub.options.topicsonly = false ∧ sub.isSubscribed (ascii "/a") := by
  have hnull (uid : Int32) : sampleSubscriptions.lookup uid ≠ some none := by
    rw [sampleSubscriptions, AList.lookup_insert_ite, AList.lookup_insert_ite, AList.lookup_empty]
    split
    · exact fun h ↦ Option.some_ne_none _ (Option.some.inj h)
    · split
      · exact fun h ↦ Option.some_ne_none _ (Option.some.inj h)
      · exact (Option.some_ne_none none).symm
  obtain ⟨⟨out, hout, hsome, hmatching⟩, -⟩ :=
    isSubscribed_agree {} hnull (ascii "/a") true
  obtain ⟨sub, rfl⟩ := Option.isSome_iff_exists.mp
    (hsome.mpr ⟨sampleSubscription, ⟨2, AList.lookup_insert _⟩, by decide, by decide⟩)
  obtain ⟨-, htopics, hsub⟩ := hmatching sub rfl
  exact ⟨sub, hout, Bool.eq_false_iff.mpr (htopics rfl), hsub⟩

end NetworkTables
