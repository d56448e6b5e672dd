import Mathlib
import FileBroker.Proofs.Dispatch.Turn

namespace FileBroker

variable {ω δ : Type}

def Item.isRequest : Item δ → Bool
  | .request .. => true
  | _           => false

def Item.id? : Item δ → Option Nat
  | .request id _ => some id
  | _             => none

namespace Dispatcher

-- An item that the loop has taken, and what it has published for it.
structure Turn (δ : Type) where
  item      : Item δ
  published : Option (Publication δ)

-- A request that there is no reply to.
def Turn.isWaiting (t : Turn δ) : Bool :=
  t.item.isRequest && t.published.isNone

-- Hands in the next item when the reply to the last one has been collected. There is no reply from a
-- loop whose helper stays silent, so that one is handed nothing more.
def attend (peer : Peer ω δ) : List (Item δ) → Dispatcher ω δ → List (Turn δ) × Dispatcher ω δ
  | [],            d => ([], d)
  | item :: items, d =>
    if d.finished then ([], d) else
    let turn : Turn δ := { item, published := (d.take peer item).1 }
    if turn.isWaiting then ([turn], (d.take peer item).2) else
    let rest := attend peer items (d.take peer item).2
    (turn :: rest.1, rest.2)

-- How the loop can go, what the helper is shown of it, and where the loop is then. Each turn begins where
-- the one before it has left the loop, and none follows one that waits or that the loop has ended in.
inductive Course (peer : Peer ω δ) : Dispatcher ω δ → List (Turn δ) → List (Cell δ) → Dispatcher ω δ → Prop
  | idle (d : Dispatcher ω δ) : Course peer d [] [] d
  | next {t : Turn δ} {d d' last : Dispatcher ω δ} :
    d.Turned peer .taken t.item t.published d' → t.isWaiting = false → d'.finished = false →
    Course peer d' turns out last → Course peer d (t :: turns) (d.shown t.item ++ out) last
  | last {t : Turn δ} {d d' : Dispatcher ω δ} :
    d.Turned peer .taken t.item t.published d' → t.isWaiting = true ∨ d'.finished = true →
    Course peer d [t] (d.shown t.item) d'

variable {peer : Peer ω δ} {d : Dispatcher ω δ} {item : Item δ} {published : Option (Publication δ)}

theorem attend_finished (h : d.finished = true) (peer : Peer ω δ) (items : List (Item δ)) :
    d.attend peer items = ([], d) := by
  cases items
  case nil  => rfl
  case cons => rw [attend, if_pos h]

-- A loop that has come to its end stays as it is. What it is handed is not taken.
theorem run_finished (h : d.finished = true) (peer : Peer ω δ) (items : List (Item δ)) :
    d.run peer items = ([], { d with stops := d.stops + items.countP Item.isStop }) := by
  induction items generalizing d
  case nil => rfl
  case cons item items hi =>
    rw [run, take_finished h]
    dsimp only
    rw [hi (by exact h), Nat.add_assoc, List.countP_cons]
    dsimp only
    cases item.isStop
    all_goals simp [Nat.add_comm]

section Step

variable {d' : Dispatcher ω δ}

theorem attend_cons (h : d.finished = false) (ht : d.take peer item = (published, d'))
    (items : List (Item δ)) :
    d.attend peer (item :: items) =
      if Turn.isWaiting { item, published } then ([{ item, published }], d')
      else ({ item, published } :: (d'.attend peer items).1, (d'.attend peer items).2) := by
  rw [attend, if_neg (by simp [h]), ht]

-- The loop takes nothing more when it is at its end, or waits.
theorem attend_last (h : d.finished = false) (ht : d.take peer item = (published, d'))
    (hl : Turn.isWaiting { item, published } = true ∨ d'.finished = true) (items : List (Item δ)) :
    d.attend peer (item :: items) = ([{ item, published }], d') := by
  rw [attend_cons h ht]
  split
  case isTrue  => rfl
  case isFalse hw => rw [attend_finished (hl.resolve_left hw)]

end Step

-- The items that were taken are a run of the loop.
theorem run_attend (peer : Peer ω δ) (items : List (Item δ)) (d : Dispatcher ω δ) :
    d.run peer ((d.attend peer items).1.map (·.item)) =
      ((d.attend peer items).1.filterMap (·.published), (d.attend peer items).2) := by
  simp only [List.filterMap_eq_flatMap_toList]
  fun_induction attend peer items d
  case case1 | case2 => rfl
  case case3 => rfl
  case case4 turn _ rest hi =>
    exact congrArg (fun r => (turn.published.toList ++ r.1, r.2)) hi

theorem attend_taken (peer : Peer ω δ) (items : List (Item δ)) (d : Dispatcher ω δ) :
    (d.attend peer items).1.map (·.item) <+: items := by
  fun_induction attend peer items d
  case case1    => exact List.prefix_refl _
  case case2    => exact List.nil_prefix
  case case3    => exact (List.prefix_cons_inj _).mpr List.nil_prefix
  case case4 hi => exact (List.prefix_cons_inj _).mpr hi

theorem attend_left (peer : Peer ω δ) (items : List (Item δ)) (d : Dispatcher ω δ) :
    (d.attend peer items).1.map (·.item) = items ∨ (d.attend peer items).2.finished = true ∨
      ∃ t ∈ (d.attend peer items).1.getLast?, t.isWaiting = true := by
  fun_induction attend peer items d
  case case1    => exact .inl rfl
  case case2 hf => exact .inr <| .inl hf
  case case3 hw => exact .inr <| .inr ⟨_, rfl, hw⟩
  case case4 item _ _ _ _ _ _ hi =>
    obtain ht | he | ⟨t, hm, hw⟩ := hi
    · exact .inl <| congrArg (item :: ·) ht
    · exact .inr <| .inl he
    · refine .inr <| .inr ⟨t, ?_, hw⟩
      rw [List.getLast?_cons, Option.mem_def.mp hm]
      rfl

-- A loop that runs goes on running, or has come to its end.
theorem Running.attend_course (h : d.Running) (peer : Peer ω δ) (items : List (Item δ)) (log : List (Cell δ)) :
    ∃ out, Course peer d (d.attend peer items).1 out (d.attend peer items).2 ∧
      ((d.attend peer items).2.finished = false → (d.attend peer items).2.Running) ∧
      (d.recorded log).attend peer.recorded items =
        ((d.attend peer items).1, (d.attend peer items).2.recorded (log ++ out)) := by
  induction items generalizing d log
  case nil =>
    refine ⟨[], .idle d, fun _ => h, ?_⟩
    rw [List.append_nil]
    rfl
  case cons item items hi =>
    have hf : (d.recorded log).finished = false := h.finished
    have ⟨ht, hn⟩ := h.take_turned peer item .taken
    have hr : (d.recorded log).take peer.recorded item .taken = _ := h.take_recorded peer item .taken
    rcases htake : d.take peer item with ⟨published, d'⟩
    rw [htake] at ht hn hr
    by_cases hl : Turn.isWaiting { item, published } = true ∨ d'.finished = true
    case pos =>
      rw [attend_last h.finished htake hl, attend_last hf hr hl]
      exact ⟨d.shown item, .last ht hl, hn, rfl⟩
    case neg =>
      obtain ⟨hw, hd⟩ := not_or.mp hl
      have hd : d'.finished = false := Bool.not_eq_true _ ▸ hd
      have ⟨rest, hc, hlast, hrest⟩ := hi (hn hd) (log ++ d.shown item)
      rw [attend_cons h.finished htake, attend_cons hf hr, hrest, if_neg hw, if_neg hw, List.append_assoc]
      exact ⟨d.shown item ++ rest, .next ht (Bool.not_eq_true _ ▸ hw) hd hc, hlast, rfl⟩

-- What is published belongs to the item, and a failure ends the loop.
theorem Turned.publishes {d' : Dispatcher ω δ} (h : d.Turned peer .taken item published d') :
    ∀ p ∈ published, p.id ∈ item.id? ∧
      ((∃ a, p.result = .ok a) ∧ p.broken = false ∨ (∃ cause, p.result = .error (.disconnected cause)) ∧
        p.broken = true ∧ d'.finished = true) := by
  intro p hp
  cases h
  case answered => cases hp; exact ⟨rfl, .inl ⟨⟨_, rfl⟩, rfl⟩⟩
  case lost     => cases hp; exact ⟨rfl, .inr ⟨⟨_, rfl⟩, rfl, rfl⟩⟩
  all_goals cases hp

-- Where the loop ends it is marked as broken, and has let go of its channel.
theorem Turned.marked {u : Uptake} {d' : Dispatcher ω δ} (h : d.Turned peer u item published d')
    (hb : d.broken = false) (hf : d.finished = false) :
    d'.broken = d'.finished ∧ (d'.finished = true → d'.link.channel = .dropped) := by
  cases h
  case answered | waiting                    => exact ⟨hb.trans hf.symm, by simp [hf]⟩
  case unwanted | lost | stopped | abandoned => exact ⟨rfl, fun _ => rfl⟩

namespace Course

variable {turns : List (Turn δ)} {out : List (Cell δ)} {last : Dispatcher ω δ}

theorem marked (h : Course peer d turns out last) (hb : d.broken = false) (hf : d.finished = false) :
    last.broken = last.finished ∧ (last.finished = true → last.link.channel = .dropped) := by
  induction h
  case idle                => exact ⟨hb.trans hf.symm, by simp [hf]⟩
  case last ht _           => exact ht.marked hb hf
  case next ht _ hf' _ hi  => exact hi ((ht.marked hb hf).left.trans hf') hf'

-- Each request goes out as it is, and the last one perhaps not to its end.
theorem sent (h : Course peer d turns out last) :
    out <+: turns.flatMap (·.item.cells) ∧
      ((∀ t ∈ turns.getLast?, ∀ p ∈ t.published, ∃ a, p.result = .ok a) →
        out = turns.flatMap (·.item.cells)) := by
  induction h
  case idle => exact ⟨List.prefix_refl _, fun _ => rfl⟩
  case last t d _ ht _ =>
    rw [List.flatMap_singleton]
    exact ⟨d.shown_prefix t.item, fun hl => ht.shown_eq (hl t rfl)⟩
  case next turns out t d _ _ ht hw hf _ hi =>
    have hs : d.shown t.item = t.item.cells := by
      refine ht.shown_eq fun p hp => ?_
      obtain ⟨_, ⟨ha, _⟩ | ⟨_, _, he⟩⟩ := ht.publishes p hp
      · exact ha
      · exact absurd he (by simp [hf])
    rw [List.flatMap_cons, hs]
    refine ⟨(List.prefix_append_right_inj _).mpr hi.left, fun hl => ?_⟩
    rw [hi.right fun s hs => hl s ?_]
    rw [List.getLast?_cons, Option.mem_def.mp hs]
    rfl

theorem ids (h : Course peer d turns out last) :
    List.Sublist ((turns.filterMap (·.published)).map (·.id)) ((turns.map (·.item)).filterMap Item.id?) := by
  have ht {t : Turn δ} {d d' : Dispatcher ω δ} (h : d.Turned peer .taken t.item t.published d') :
      List.Sublist (t.published.toList.map (·.id)) t.item.id?.toList := by
    rcases hp : t.published with _ | p
    case none => exact List.nil_sublist _
    case some =>
      rw [Option.mem_def.mp (h.publishes p hp).left]
      exact List.Sublist.refl _
  simp only [List.filterMap_eq_flatMap_toList]
  induction h
  case idle           => exact List.Sublist.refl _
  case next h _ _ _ hs =>
    simp only [List.flatMap_cons, List.map_cons, List.map_append]
    exact (ht h).append hs
  case last h _ =>
    simp only [List.flatMap_singleton, List.map_cons, List.map_nil]
    exact ht h

-- What is published belongs to the item, and a failure is the last of it.
theorem publishes (h : Course peer d turns out last) :
    ∀ t ∈ turns, ∀ p ∈ t.published, p.id ∈ t.item.id? ∧
      ((∃ a, p.result = .ok a) ∧ p.broken = false ∨ (∃ cause, p.result = .error (.disconnected cause)) ∧
        p.broken = true ∧ turns.getLast? = some t ∧ last.finished = true) := by
  induction h
  case idle =>
    intro t ht
    cases ht
  case next turns _ _ _ _ _ h _ hf _ hi =>
    intro t ht p hp
    cases List.mem_cons.mp ht
    case inl he =>
      subst he
      obtain ⟨hid, ha | ⟨_, _, he⟩⟩ := h.publishes p hp
      · exact ⟨hid, .inl ha⟩
      · exact absurd he (by simp [hf])
    case inr hm =>
      obtain ⟨hid, ha | ⟨hc, hb, hl, he⟩⟩ := hi t hm p hp
      · exact ⟨hid, .inl ha⟩
      · refine ⟨hid, .inr ⟨hc, hb, ?_, he⟩⟩
        rw [List.getLast?_cons, hl]
        rfl
  case last h _ =>
    intro t ht p hp
    cases List.mem_singleton.mp ht
    obtain ⟨hid, ha | ⟨hc, hb, he⟩⟩ := h.publishes p hp
    · exact ⟨hid, .inl ha⟩
    · exact ⟨hid, .inr ⟨hc, hb, rfl, he⟩⟩

end Course

-- Any items, any helper.
theorem requests_are_answered_in_turn (h : d.Running) (peer : Peer ω δ) (items : List (Item δ)) :
    let turns := (d.attend peer items).1
    let last  := (d.attend peer items).2
    ∃ out, (d.recorded []).attend peer.recorded items = (turns, last.recorded out) ∧
      Course peer d turns out last ∧
      out <+: turns.flatMap (·.item.cells) ∧
      ((∀ t ∈ turns.getLast?, ∀ p ∈ t.published, ∃ a, p.result = .ok a) →
        out = turns.flatMap (·.item.cells)) ∧
      last.broken = last.finished ∧ (last.finished = true → last.link.channel = .dropped) ∧
      turns.map (·.item) <+: items ∧
      (turns.map (·.item) = items ∨ last.finished = true ∨ ∃ t ∈ turns.getLast?, t.isWaiting = true) ∧
      d.run peer (turns.map (·.item)) = (turns.filterMap (·.published), last) ∧
      ((items.filterMap Item.id?).Nodup → ((turns.filterMap (·.published)).map (·.id)).Nodup) ∧
      (∀ t ∈ turns, ∀ p ∈ t.published, p.id ∈ t.item.id? ∧ ∀ failure, p.result = .error failure →
        (∃ text, failure.text = "Disconnected: " ++ text) ∧ p.broken = true ∧ turns.getLast? = some t ∧
          last.finished = true) ∧
      (last.finished = true → ∀ more, (last.recorded out).run peer.recorded more =
        ([], { last.recorded out with stops := last.stops + more.countP Item.isStop })) ∧
      (last.finished = false → ∀ item u,
        last.Turned peer u item (last.take peer item u).1 (last.take peer item u).2) := by
  intro turns last
  have ⟨out, hc, hr, hrec⟩ := h.attend_course peer items []
  have ht : turns.map (·.item) <+: items := attend_taken ..
  have ⟨hb, hd⟩ := hc.marked h.broken h.finished
  refine ⟨out, hrec, hc, hc.sent.left, hc.sent.right, hb, hd, ht, attend_left .., run_attend ..,
    fun hn => ?_, fun t hm p hp => ?_, fun hf more => ?_,
    fun hf item u => ((hr hf).take_turned peer item u).left⟩
  · exact hn.sublist (hc.ids.trans (ht.sublist.filterMap _))
  · obtain ⟨hid, ⟨⟨a, ha⟩, _⟩ | ⟨⟨cause, hcause⟩, hb, hl, he⟩⟩ := hc.publishes t hm p hp
    · exact ⟨hid, fun failure hf => by simp [ha] at hf⟩
    · refine ⟨hid, fun failure hf => ?_⟩
      cases hcause.symm.trans hf
      exact ⟨⟨_, rfl⟩, hb, hl, he⟩
  · exact run_finished (d := last.recorded out) hf peer.recorded more

-- A helper that answers one request and goes away over the next.
theorem request_is_lost_with_its_helper :
    let e : Encoded Nat := { operation := .makeDir, bytes := [0], fds := [] }
    let reply : Reaction Nat := { segments := [{ bytes := Utf8.encode readyStatus ++ [0] }] }
    let peer : Peer Bool Nat := { react _ answered := (if answered then .leave else reply, true) }
    let d : Dispatcher Bool Nat := { link := { far := false } }
    let items : List (Item Nat) := [.request 1 e, .request 2 e, .stop]
    let turns := (d.attend peer items).1
    let last  := (d.attend peer items).2
    d.Running ∧
      turns.map (fun t => (t.item, t.published.map fun p => (p.id, p.broken))) =
        [(.request 1 e, some (1, false)), (.request 2 e, some (2, true))] ∧
      (∃ out, (d.recorded []).attend peer.recorded items = (turns, last.recorded out) ∧
        Course peer d turns out last) ∧
      last.broken = true ∧ last.link.channel = .dropped := by
  intro e reply peer d items turns last
  have hd : d.Running := ⟨⟨(Channel.fresh_carries (δ := Nat) [] false).toWf, rfl⟩, rfl, rfl⟩
  have hf : last.finished = true := by decide +kernel
  have ⟨out, hr, hc, _, _, hb, hl, _⟩ := requests_are_answered_in_turn hd peer items
  exact ⟨hd, by decide +kernel, ⟨out, hr, hc⟩, hb.trans hf, hl hf⟩

end Dispatcher

end FileBroker
