/-
# Every subscriber is told of every destruction exactly once

A subscriber that joins and does not leave is told of every unit that is destroyed from then on, in
order, once each, and counts them from one (`notices_of_subscribed`).  Whoever has no subscription is
told of none (`notices_of_absent`).  A subscriber that leaves and joins again has two subscriptions
one after the other, and starts counting anew.

The outcomes of a history tell who has joined and not left since, in the order in which they joined
(`standing`, `mem_standing_iff`).  These are the subscribers, though not always in this order:
leaving moves the last one into the gap (`subscribers_perm`).  As long as only the last one leaves the
order is kept (`subscribers_eq`).

`every_destruction_told_once` says all of it.
-/
import UnitBake.Proofs.Entity.Subscriptions

namespace UnitBake.Allocator

/-! ## 1. Who has joined and not left -/

/-- Who has joined and not left since, after one more outcome. -/
def standNext (subscribers : List UInt64) : Outcome → List UInt64
  | .registered s => subscribers ++ [s]
  | .unregistered s => subscribers.filter (· != s)
  | _ => subscribers

/-- Who has joined and not left since, in the order in which they joined. -/
def standing (outcomes : List Outcome) : List UInt64 := outcomes.foldl standNext []

@[simp] theorem standing_nil : standing [] = [] := rfl

theorem standing_concat (outcomes : List Outcome) (o : Outcome) :
    standing (outcomes ++ [o]) = standNext (standing outcomes) o := by
  rw [standing, List.foldl_append]
  rfl

theorem mem_standNext {subscribers : List UInt64} {o : Outcome} {s : UInt64} :
    s ∈ standNext subscribers o ↔
      o = .registered s ∨ s ∈ subscribers ∧ o ≠ .unregistered s := by
  cases o with
  | created id => simp [standNext]
  | destroyed id d => simp [standNext]
  | registered s' => simp [standNext, Or.comm, eq_comm (a := s)]
  | unregistered s' => simp [standNext, eq_comm (a := s)]
  | refused e => simp [standNext]

/-- Nothing but joining and leaving changes who stands. -/
theorem standNext_of_ne {subscribers : List UInt64} {o : Outcome}
    (hregistered : ∀ s, o ≠ .registered s) (hunregistered : ∀ s, o ≠ .unregistered s) :
    standNext subscribers o = subscribers := by
  cases o with
  | registered s => exact absurd rfl (hregistered s)
  | unregistered s => exact absurd rfl (hunregistered s)
  | created id => rfl
  | destroyed id d => rfl
  | refused e => rfl

/-- **Somebody stands who joined and has not left since.** -/
theorem mem_standing_iff {outcomes : List Outcome} {s : UInt64} :
    s ∈ standing outcomes ↔ ∃ before later, outcomes = before ++ .registered s :: later ∧
      Outcome.unregistered s ∉ later := by
  induction outcomes using List.reverseRecOn with
  | nil => simp
  | append_singleton outcomes o ih =>
    rw [standing_concat, mem_standNext, ih]
    constructor
    · rintro (rfl | ⟨⟨before, later, rfl, hlater⟩, hstays⟩)
      · exact ⟨outcomes, [], rfl, List.not_mem_nil⟩
      · refine ⟨before, later ++ [o], by simp, ?_⟩
        intro hmem
        rcases List.mem_append.mp hmem with hmem | hmem
        · exact hlater hmem
        · exact hstays (List.mem_singleton.mp hmem).symm
    · rintro ⟨before, later, hsplit, hlater⟩
      obtain ⟨-, ho, -⟩ | ⟨between, rfl, hbetween⟩ := split_concat hsplit
      · exact Or.inl ho.symm
      · refine Or.inr ⟨⟨before, between, hbetween, fun h => hlater (by simp [h])⟩, ?_⟩
        rintro rfl
        exact hlater (by simp)

/-! ## 2. The subscribers -/

/-- Leaving removes one of distinct elements from a list. -/
theorem filter_ne_of_nodup {front back : List UInt64} {x : UInt64}
    (h : (front ++ x :: back).Nodup) : (front ++ x :: back).filter (· != x) = front ++ back := by
  have hperm := (List.perm_middle.nodup_iff.mp h)
  obtain ⟨hx, -⟩ := List.nodup_cons.mp hperm
  rw [List.filter_append, List.filter_cons_of_neg (by simp), ← List.filter_append]
  refine List.filter_eq_self.mpr ?_
  intro y hy
  simp only [bne_iff_ne, ne_eq]
  rintro rfl
  exact hx hy

/-- The subscribers stay distinct, and follow the outcomes up to their order. -/
theorem Change.subscribers_perm {s s' : Subscriptions} {o : Outcome} (h : Change s o s')
    {xs : List UInt64} (hnodup : s.subscribers.Nodup) (hperm : s.subscribers.Perm xs) :
    s'.subscribers.Nodup ∧ s'.subscribers.Perm (standNext xs o) := by
  cases h with
  | @joined x hnew =>
    have hjoined : Subscriptions.subscribers ⟨s.list ++ [⟨x, 0⟩]⟩ = s.subscribers ++ [x] := by
      simp [Subscriptions.subscribers]
    rw [hjoined]
    refine ⟨?_, hperm.append_right [x]⟩
    rw [← List.concat_eq_append]
    exact hnodup.concat hnew
  | @left front back y hlist =>
    have hold := Subscriptions.subscribers_of_list hlist
    have hclosed : (Subscriptions.subscribers ⟨front ++ Subscriptions.closeGap back⟩).Perm
        (front.map (·.subscriber) ++ back.map (·.subscriber)) := by
      rw [Subscriptions.subscribers, List.map_append]
      exact ((Subscriptions.closeGap_perm back).map _).append_left _
    rw [hold] at hnodup hperm
    have hstand := hperm.filter (· != y.subscriber)
    rw [filter_ne_of_nodup hnodup] at hstand
    refine ⟨?_, hclosed.trans hstand⟩
    exact hclosed.nodup_iff.mpr (List.nodup_cons.mp (List.perm_middle.nodup_iff.mp hnodup)).2
  | told hnotices =>
    rw [Subscriptions.subscribers_tell]
    exact ⟨hnodup, hperm⟩
  | unchanged hregistered hunregistered hdestroyed =>
    rw [standNext_of_ne hregistered hunregistered]
    exact ⟨hnodup, hperm⟩

/-- **The subscribers are those who have joined and not left since**, each once. -/
theorem subscribers_perm (actions : List Action) :
    (History.after actions).allocator.subscriptions.subscribers.Nodup ∧
      (History.after actions).allocator.subscriptions.subscribers.Perm
        (standing (History.after actions).outcomes) := by
  induction actions using List.reverseRecOn with
  | nil => exact ⟨List.nodup_nil, List.Perm.refl _⟩
  | append_singleton actions x ih =>
    obtain ⟨hnodup, hperm⟩ := ih
    rw [History.after_concat, History.step, standing_concat]
    exact (change_act _ x).subscribers_perm hnodup hperm

theorem mem_subscribers_iff (actions : List Action) (s : UInt64) :
    s ∈ (History.after actions).allocator.subscriptions.subscribers ↔
      s ∈ standing (History.after actions).outcomes :=
  (subscribers_perm actions).2.mem_iff

/-- Only the last subscriber ever leaves. -/
def LastLeaves (actions : List Action) : Prop :=
  ∀ front s back, actions = front ++ .unregister s :: back →
    (History.after front).allocator.subscriptions.contains s = true →
      (History.after front).allocator.subscriptions.subscribers.getLast? = some s

theorem LastLeaves.nil : LastLeaves [] := by
  intro front s back h
  exact absurd h (by simp)

/-- Such a list may be followed by anything but that another than the last subscriber leaves. -/
theorem LastLeaves.concat {actions : List Action} (h : LastLeaves actions) {x : Action}
    (hx : ∀ s, x = .unregister s →
      (History.after actions).allocator.subscriptions.contains s = true →
        (History.after actions).allocator.subscriptions.subscribers.getLast? = some s) :
    LastLeaves (actions ++ [x]) := by
  intro front s back hsplit
  obtain ⟨rfl, hlast, -⟩ | ⟨between, -, hbetween⟩ := split_concat hsplit
  · exact hx s hlast.symm
  · exact h front s between hbetween

theorem LastLeaves.of_concat {actions : List Action} {x : Action}
    (h : LastLeaves (actions ++ [x])) : LastLeaves actions := by
  intro front s back hsplit
  exact h front s (back ++ [x]) (by simp [hsplit])

/-- The last one leaves without anybody moving. -/
theorem Change.subscribers_eq {s s' : Subscriptions} {o : Outcome} (h : Change s o s')
    (hnodup : s.subscribers.Nodup)
    (hlast : ∀ x, o = .unregistered x → s.subscribers.getLast? = some x) :
    s'.subscribers = standNext s.subscribers o := by
  cases h with
  | joined hnew => simp [Subscriptions.subscribers, standNext]
  | @left front back y hlist =>
    have hold := Subscriptions.subscribers_of_list hlist
    have hend := hlast _ rfl
    rw [hold] at hnodup hend
    rcases List.eq_nil_or_concat back with rfl | ⟨mid, last, rfl⟩
    · rw [standNext, hold, filter_ne_of_nodup hnodup]
      simp [Subscriptions.subscribers]
    · -- somebody else is last, and subscribers are distinct
      have hlast : last.subscriber = y.subscriber := by
        rw [List.concat_eq_append, List.map_append, ← List.cons_append, ← List.append_assoc,
          List.map_singleton, List.getLast?_concat] at hend
        exact Option.some.inj hend
      have hfresh := (List.nodup_cons.mp (List.perm_middle.nodup_iff.mp hnodup)).1
      exact absurd (by simp [hlast]) hfresh
  | told hnotices =>
    rw [standNext_of_ne (by simp) (by simp)]
    exact Subscriptions.subscribers_tell s _
  | unchanged hregistered hunregistered hdestroyed =>
    exact (standNext_of_ne hregistered hunregistered).symm

/-- **As long as only the last subscriber leaves, subscribers stand in the order in which they
joined.** -/
theorem subscribers_eq {actions : List Action} (h : LastLeaves actions) :
    (History.after actions).allocator.subscriptions.subscribers =
      standing (History.after actions).outcomes := by
  induction actions using List.reverseRecOn with
  | nil => rfl
  | append_singleton actions x ih =>
    rw [History.after_concat, History.step, standing_concat, ← ih h.of_concat]
    refine (change_act _ x).subscribers_eq (subscribers_perm actions).1 ?_
    intro s ho
    have heffect := (History.after actions).allocator.effect_act x
    rw [ho] at heffect
    obtain ⟨rfl, front, y, back, hlist, rfl, -⟩ := heffect.eq_unregister
    exact h actions y.subscriber [] rfl (Subscriptions.contains_of_list hlist)

/-! ## 3. Notices -/

/-- Who is told what by an outcome. -/
def Outcome.notices : Outcome → List Notice
  | .destroyed _ d => d.notices
  | _ => []

/-- The unit an outcome destroys. -/
def Outcome.destroyedId? : Outcome → Option EntityId
  | .destroyed id _ => some id
  | _ => none

/-- What a subscriber is told, in order. -/
def noticesTo (s : UInt64) (outcomes : List Outcome) : List Notice :=
  (outcomes.flatMap Outcome.notices).filter (·.subscriber == s)

/-- The units that are destroyed, in order. -/
def destroyedIds (outcomes : List Outcome) : List EntityId :=
  outcomes.filterMap Outcome.destroyedId?

theorem noticesTo_append (s : UInt64) (before later : List Outcome) :
    noticesTo s (before ++ later) = noticesTo s before ++ noticesTo s later := by
  simp [noticesTo]

theorem destroyedIds_append (before later : List Outcome) :
    destroyedIds (before ++ later) = destroyedIds before ++ destroyedIds later :=
  List.filterMap_append

/-- Only destroying a unit tells anybody. -/
theorem noticesTo_of_ne {s : UInt64} {o : Outcome} (h : ∀ id d, o ≠ .destroyed id d) :
    noticesTo s [o] = [] ∧ destroyedIds [o] = [] := by
  cases o with
  | destroyed id d => exact absurd rfl (h id d)
  | created id => exact ⟨rfl, rfl⟩
  | registered s => exact ⟨rfl, rfl⟩
  | unregistered s => exact ⟨rfl, rfl⟩
  | refused e => exact ⟨rfl, rfl⟩

theorem noticesTo_destroyed (s : UInt64) (id : EntityId) (d : Destruction) :
    noticesTo s [.destroyed id d] = d.notices.filter (·.subscriber == s) := by
  rw [noticesTo, List.flatMap_cons, List.flatMap_nil, List.append_nil]
  rfl

/-- Among subscriptions of distinct subscribers there is one of each. -/
theorem filter_subscriber_of_mem {x : Subscription} : ∀ {xs : List Subscription},
    (xs.map (·.subscriber)).Nodup → x ∈ xs →
      xs.filter (·.subscriber == x.subscriber) = [x]
  | y :: ys, hnodup, hx => by
    obtain ⟨hy, hnodup⟩ := List.nodup_cons.mp hnodup
    rcases List.mem_cons.mp hx with rfl | hx
    · have hnone : ys.filter (·.subscriber == x.subscriber) = [] := by
        refine List.filter_eq_nil_iff.mpr ?_
        intro z hz heq
        exact hy (List.mem_map.mpr ⟨z, hz, eq_of_beq heq⟩)
      rw [List.filter_cons_of_pos (by simp), hnone]
    · rw [List.filter_cons_of_neg]
      · exact filter_subscriber_of_mem hnodup hx
      · intro heq
        exact hy (List.mem_map.mpr ⟨x, hx, (eq_of_beq heq).symm⟩)

/-- What one subscriber is told of a unit. -/
theorem filter_tell (s : Subscriptions) (x : UInt64) (id : EntityId) :
    (s.tell id).1.filter (·.subscriber == x) =
      (s.list.filter (·.subscriber == x)).map fun y => (y.tell id).1 := by
  rw [Subscriptions.tell, List.map_map, List.filter_map]
  rfl

/-- **One more outcome** for somebody who has a subscription and does not leave: the subscription
stays, and a unit that is destroyed is told of and counted. -/
theorem Change.notices_of_mem {s s' : Subscriptions} {o : Outcome} (h : Change s o s')
    (hnodup : s.subscribers.Nodup) {x : UInt64} {n : Nat} (hmem : ⟨x, n⟩ ∈ s.list)
    (hstays : o ≠ .unregistered x) :
    ⟨x, n + (destroyedIds [o]).length⟩ ∈ s'.list ∧
      noticesTo x [o] = (destroyedIds [o]).map fun id => ⟨x, id, n + 1⟩ := by
  cases h with
  | joined hnew => exact ⟨List.mem_append_left _ hmem, rfl⟩
  | @left front back y hlist =>
    refine ⟨?_, rfl⟩
    have hne : (⟨x, n⟩ : Subscription) ≠ y := by
      rintro rfl
      exact hstays rfl
    rw [hlist] at hmem
    rcases List.mem_append.mp hmem with hmem | hmem
    · exact List.mem_append_left _ hmem
    · refine List.mem_append_right _ ((Subscriptions.closeGap_perm back).mem_iff.mpr ?_)
      exact (List.mem_cons.mp hmem).resolve_left hne
  | @told id d hnotices =>
    refine ⟨List.mem_map.mpr ⟨_, List.mem_map_of_mem hmem, rfl⟩, ?_⟩
    rw [noticesTo_destroyed, hnotices, filter_tell, filter_subscriber_of_mem hnodup hmem]
    rfl
  | unchanged hregistered hunregistered hdestroyed =>
    obtain ⟨hnotices, hids⟩ := noticesTo_of_ne (s := x) hdestroyed
    rw [hnotices, hids]
    exact ⟨hmem, rfl⟩

/-- Who joins has been told of nothing. -/
theorem Change.mem_of_registered {s s' : Subscriptions} {x : UInt64}
    (h : Change s (.registered x) s') : ⟨x, 0⟩ ∈ s'.list := by
  cases h with
  | joined hnew => exact List.mem_append_right _ List.mem_cons_self
  | unchanged hregistered hunregistered hdestroyed => exact absurd rfl (hregistered x)

/-- One more outcome destroys one more unit or none. -/
theorem mapIdx_destroyedIds_concat {α : Type} (f : Nat → EntityId → α) (outcomes : List Outcome)
    (o : Outcome) :
    (destroyedIds (outcomes ++ [o])).mapIdx f =
      (destroyedIds outcomes).mapIdx f ++
        (destroyedIds [o]).map (f (destroyedIds outcomes).length) := by
  have hone : destroyedIds [o] = o.destroyedId?.toList := by
    cases h : o.destroyedId? <;> simp [destroyedIds, h]
  rw [destroyedIds_append, hone]
  cases o.destroyedId? with
  | none => simp
  | some id => exact List.mapIdx_concat

/-- **Who joined and has not left was told of every unit destroyed since, once each, in order.** -/
theorem notices_of_subscribed {actions : List Action} {before during : List Outcome} {s : UInt64}
    (hsplit : (History.after actions).outcomes = before ++ .registered s :: during)
    (hstays : Outcome.unregistered s ∉ during) :
    ⟨s, (destroyedIds during).length⟩ ∈ (History.after actions).allocator.subscriptions.list ∧
      noticesTo s during = (destroyedIds during).mapIdx fun i id => ⟨s, id, i + 1⟩ := by
  induction actions using List.reverseRecOn generalizing during with
  | nil => exact absurd hsplit (by simp [History.after, History.start])
  | append_singleton actions x ih =>
    have hchange := change_act (History.after actions).allocator x
    rw [History.after_concat, History.step] at hsplit ⊢
    obtain ⟨rfl, ho, rfl⟩ | ⟨between, rfl, hbetween⟩ := split_concat hsplit
    · -- the outcome that joins
      rw [← ho] at hchange
      exact ⟨hchange.mem_of_registered, rfl⟩
    · obtain ⟨hmem, hnotices⟩ := ih hbetween fun h => hstays (List.mem_append_left _ h)
      have hlast : ((History.after actions).allocator.act x).1 ≠ .unregistered s := by
        intro heq
        exact hstays (by simp [heq])
      obtain ⟨hmem', hnotices'⟩ := hchange.notices_of_mem (subscribers_perm actions).1 hmem hlast
      rw [noticesTo_append, mapIdx_destroyedIds_concat, hnotices, hnotices', destroyedIds_append,
        List.length_append]
      exact ⟨hmem', rfl⟩

/-- One more outcome for somebody who has no subscription and does not join: there still is none, and
nothing is told. -/
theorem Change.notices_of_notMem {s s' : Subscriptions} {o : Outcome} (h : Change s o s')
    {x : UInt64} (hx : x ∉ s.subscribers) : noticesTo x [o] = [] := by
  cases h with
  | joined hnew => rfl
  | left hlist => rfl
  | @told id d hnotices =>
    rw [noticesTo_destroyed, hnotices]
    refine List.filter_eq_nil_iff.mpr ?_
    intro notice hnotice heq
    rw [← s.subscriber_of_tell id] at hx
    exact hx (List.mem_map.mpr ⟨notice, hnotice, eq_of_beq heq⟩)
  | unchanged hregistered hunregistered hdestroyed => exact (noticesTo_of_ne hdestroyed).1

/-- **Who has no subscription and does not join is told of nothing.** -/
theorem notices_of_absent {actions : List Action} {before during : List Outcome} {s : UInt64}
    (hsplit : (History.after actions).outcomes = before ++ during) (habsent : s ∉ standing before)
    (hstays : Outcome.registered s ∉ during) :
    s ∉ standing (before ++ during) ∧ noticesTo s during = [] := by
  induction actions using List.reverseRecOn generalizing during with
  | nil =>
    obtain ⟨rfl, rfl⟩ := List.append_eq_nil_iff.mp hsplit.symm
    exact ⟨habsent, rfl⟩
  | append_singleton actions x ih =>
    rcases List.eq_nil_or_concat during with rfl | ⟨between, o, rfl⟩
    · rw [List.append_nil]
      exact ⟨habsent, rfl⟩
    · rw [List.concat_eq_append] at hsplit hstays ⊢
      rw [History.after_concat, History.step, ← List.append_assoc] at hsplit
      obtain ⟨hbefore, ho⟩ := List.append_inj' hsplit rfl
      obtain rfl := (List.cons.inj ho).1
      obtain ⟨hout, hnotices⟩ := ih hbefore fun h => hstays (List.mem_append_left _ h)
      have hsubscribers : s ∉ (History.after actions).allocator.subscriptions.subscribers := by
        rw [mem_subscribers_iff, hbefore]
        exact hout
      have hjoins : ((History.after actions).allocator.act x).1 ≠ .registered s := by
        intro heq
        exact hstays (by simp [heq])
      rw [noticesTo_append, hnotices, (change_act _ x).notices_of_notMem hsubscribers,
        ← List.append_assoc, standing_concat, mem_standNext]
      refine ⟨?_, rfl⟩
      rintro (heq | ⟨hstand, -⟩)
      · exact hjoins heq
      · exact hout hstand

/-! ## 4. Whole histories -/

/-- The outcomes up to any point are those of a history. -/
theorem History.exists_of_append {actions : List Action} {front back : List Outcome}
    (h : (after actions).outcomes = front ++ back) :
    ∃ actions', (after actions').outcomes = front := by
  cases back with
  | nil =>
    rw [List.append_nil] at h
    exact ⟨actions, h⟩
  | cons o back =>
    obtain ⟨actions', x, rest, -, hfront, -⟩ := outcomes_split h
    exact ⟨actions', hfront⟩

/-- **Every subscriber is told of every destruction exactly once.**  After any actions

* no subscriber has two subscriptions, and who has one is who joined and has not left since;
* from joining on, as long as it does not leave, a subscriber is told of just the units that are
  destroyed, in order, once each, and has been told `i + 1` times when it is told of the `i`-th; as
  long as it has no subscription it is told of nothing;
* as long as only the last subscriber left, the subscribers stand in the order in which they joined.

In any one allocator

* a unit that is destroyed leads to one call of each subscriber, in order, and every call is made when
  the generation of the unit's slot is raised, so that its id is dead, and the slot is queued;
* who leaves takes the own subscription along; if it was not the last, the last one moves into its
  place, and all others keep their order;
* to destroy a dead id, to join twice and to leave without a subscription are refused, and whatever is
  refused leaves the allocator as it was. -/
theorem every_destruction_told_once (actions : List Action) :
    (History.after actions).allocator.subscriptions.subscribers.Nodup ∧
    (∀ s, (History.after actions).allocator.subscriptions.contains s = true ↔
      ∃ before later, (History.after actions).outcomes = before ++ .registered s :: later ∧
        Outcome.unregistered s ∉ later) ∧
    (∀ s before during later,
      (History.after actions).outcomes = before ++ .registered s :: (during ++ later) →
        Outcome.unregistered s ∉ during →
          noticesTo s during = (destroyedIds during).mapIdx fun i id => ⟨s, id, i + 1⟩) ∧
    (∀ s before during later, (History.after actions).outcomes = before ++ during ++ later →
      (∀ front back, before = front ++ .registered s :: back → Outcome.unregistered s ∈ back) →
        Outcome.registered s ∉ during → noticesTo s during = []) ∧
    (LastLeaves actions →
      (History.after actions).allocator.subscriptions.subscribers =
        standing (History.after actions).outcomes) ∧
    (∀ (a : Allocator) id, a.alive id = true →
      ∃ calls event a', a.destroyCalling id = (.ok (calls, event), a') ∧
        a.act (.destroy id) = (.destroyed id ⟨calls.map (·.notice), event⟩, a') ∧
        calls.map (·.notice.subscriber) = a.subscriptions.subscribers ∧
        ∀ call ∈ calls, call.notice.id = id ∧ call.allocator.alive id = false ∧
          call.allocator.generationOf id.index = id.generation + 1 ∧
          call.allocator.free.toList = a.free.toList ++ [id.index]) ∧
    (∀ (a a' : Allocator) s, a.act (.unregister s) = (.unregistered s, a') →
      ∃ front y back, a.subscriptions.list = front ++ y :: back ∧ y.subscriber = s ∧
        a'.generations = a.generations ∧ a'.free = a.free ∧
        (back = [] → a'.subscriptions.list = front) ∧
        ∀ mid last, back = mid ++ [last] → a'.subscriptions.list = front ++ last :: mid) ∧
    (∀ (a : Allocator) id, (∃ e, (a.act (.destroy id)).1 = .refused e) ↔ a.alive id = false) ∧
    (∀ (a : Allocator) s,
      (∃ e, (a.act (.register s)).1 = .refused e) ↔ a.subscriptions.contains s = true) ∧
    (∀ (a : Allocator) s,
      (∃ e, (a.act (.unregister s)).1 = .refused e) ↔ a.subscriptions.contains s = false) ∧
    ∀ (a : Allocator) x e, (a.act x).1 = .refused e → (a.act x).2 = a := by
  refine ⟨(subscribers_perm actions).1, ?_, ?_, ?_, subscribers_eq, ?_, ?_,
    fun a id => a.refused_act_iff (.destroy id), fun a s => a.refused_act_iff (.register s),
    fun a s => a.refused_act_iff (.unregister s), ?_⟩
  · intro s
    rw [Subscriptions.contains_iff, mem_subscribers_iff, mem_standing_iff]
  · intro s before during later hsplit hstays
    rw [← List.cons_append, ← List.append_assoc] at hsplit
    obtain ⟨actions', hfront⟩ := History.exists_of_append hsplit
    exact (notices_of_subscribed hfront hstays).2
  · intro s before during later hsplit hleft hstays
    obtain ⟨actions', hfront⟩ := History.exists_of_append hsplit
    refine (notices_of_absent hfront ?_ hstays).2
    rw [mem_standing_iff]
    rintro ⟨front, back, hbefore, hback⟩
    exact hback (hleft front back hbefore)
  · intro a id halive
    obtain ⟨calls, event, a', hcalling⟩ := exists_destroyCalling halive
    have hnotices := notices_of_calls hcalling
    refine ⟨calls, event, a', hcalling, act_destroy_of_calls hcalling, ?_, ?_⟩
    · rw [← a.subscriptions.subscriber_of_tell id, ← hnotices, List.map_map]
      rfl
    · intro call hcall
      refine ⟨?_, retired_of_mem_calls hcalling hcall⟩
      exact Subscriptions.id_of_mem_tell (hnotices ▸ List.mem_map_of_mem hcall)
  · intro a a' s h
    have heffect := a.effect_act (.unregister s)
    rw [h] at heffect
    obtain ⟨-, front, y, back, hlist, hy, rfl⟩ := heffect.eq_unregister
    refine ⟨front, y, back, hlist, hy, rfl, rfl, ?_, ?_⟩
    · rintro rfl
      simp
    · rintro mid last rfl
      simp
  · intro a x e h
    have heffect := a.effect_act x
    rw [h] at heffect
    exact heffect.eq_of_refused

/-- The first of three subscribers leaves between two destructions, and joins again. -/
def rejoining : List Action :=
  [.create, .create, .register 1, .register 2, .register 3, .destroy ⟨0⟩, .unregister 1,
    .register 1, .destroy ⟨1⟩]

/-- The last of two subscribers leaves, and a third joins. -/
def lastLeaving : List Action := [.register 1, .register 2, .unregister 2, .register 3]

/-- Who stays is told of both units; who joined again only of the second, and counts anew.  The third
stands in the place of the first, and where only the last one left the order is that of joining. -/
theorem every_destruction_told_once_rejoining :
    noticesTo 3 ((History.after rejoining).outcomes.drop 5) = [⟨3, ⟨0⟩, 1⟩, ⟨3, ⟨1⟩, 2⟩] ∧
      noticesTo 1 ((History.after rejoining).outcomes.drop 8) = [⟨1, ⟨1⟩, 1⟩] ∧
      (History.after rejoining).allocator.subscriptions.subscribers = [3, 2, 1] ∧
      (History.after lastLeaving).allocator.subscriptions.subscribers = [1, 3] := by
  obtain ⟨-, -, htold, -⟩ := every_destruction_told_once rejoining
  obtain ⟨-, -, -, -, horder, -⟩ := every_destruction_told_once lastLeaving
  have htwo : LastLeaves [.register 1, .register 2] :=
    (LastLeaves.nil.concat (by simp)).concat (by simp)
  have hleft : LastLeaves [.register 1, .register 2, .unregister 2] := by
    refine htwo.concat ?_
    intro s hs _
    rw [← Action.unregister.inj hs]
    decide +kernel
  have hlast : LastLeaves lastLeaving := hleft.concat (by simp)
  refine ⟨?_, ?_, by decide +kernel, (horder hlast).trans (by decide +kernel)⟩
  · have hthree := htold 3 ((History.after rejoining).outcomes.take 4)
      ((History.after rejoining).outcomes.drop 5) [] (by decide +kernel) (by decide +kernel)
    exact hthree.trans (by decide +kernel)
  · have hone := htold 1 ((History.after rejoining).outcomes.take 7)
      ((History.after rejoining).outcomes.drop 8) [] (by decide +kernel) (by decide +kernel)
    exact hone.trans (by decide +kernel)

end UnitBake.Allocator
