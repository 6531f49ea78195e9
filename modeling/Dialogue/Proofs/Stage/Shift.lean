import Dialogue.Proofs.Stage.Requests
import Dialogue.Proofs.Stage.Orders
namespace Dialogue

theorem lookup_map_add {β : Type} (n k : Nat) (l : List (Nat × β)) :
    (l.map fun e => (e.1 + n, e.2)).lookup (k + n) = l.lookup k := by
  induction l with
  | nil => rfl
  | cons e l ih =>
    have hb : (k + n == e.1 + n) = (k == e.1) := by
      rw [Bool.eq_iff_iff, beq_iff_eq, beq_iff_eq, Nat.add_right_cancel_iff]
    rw [List.map_cons, List.lookup_cons, List.lookup_cons, hb, ih]

def Timeline.shift (n : Nat) (t : Timeline) : Timeline :=
  ⟨t.tweens.map fun e => (e.1 + n, e.2), t.last + n⟩

namespace Timeline

variable (n : Nat) (t : Timeline)

theorem animate_shift (initial final duration : Float32) :
    (t.shift n).animate initial final duration =
      (t.animate initial final duration).map (· + n) (shift n) := by
  have hid : t.last + n + 1 = t.last + 1 + n := Nat.add_right_comm _ _ _
  simp only [animate, shift, Prod.map_apply, hid]
  split
  · rfl
  · rw [List.map_append, List.map_singleton]

theorem find?_shift (k : Nat) : (t.shift n).find? (k + n) = t.find? k :=
  lookup_map_add n k t.tweens

theorem progress_shift (k : Nat) : (t.shift n).progress (k + n) = t.progress k := by
  rw [progress, isFinished, value?, find?_shift]
  rfl

theorem finish_shift (k : Nat) : (t.shift n).finish (k + n) = (t.finish k).shift n := by
  simp only [finish, shift, List.filter_map]
  congr 2
  apply List.filter_congr
  intro e _
  rw [Function.comp_apply, Bool.eq_iff_iff, bne_iff_ne, bne_iff_ne, ne_eq, ne_eq,
    Nat.add_right_cancel_iff]

theorem update_shift (dt : Float32) : (t.shift n).update dt = (t.update dt).shift n := by
  simp only [update, shift, List.map_map, List.filter_map]
  rfl

end Timeline

def Board.shift (n : Nat) (b : Board) : Board :=
  { b with timeline := b.timeline.shift n }

def Act.shift (n : Nat) : Act → Act
  | .spawn actor image entrance tween => .spawn actor image entrance (tween.map (· + n))
  | .despawn actor exit tweens width =>
    .despawn actor exit (tweens.map (Prod.map (· + n) (· + n))) width
  | .gesture actor g tween secondHalf => .gesture actor g (tween.map (· + n)) secondHalf
  | .expression actor image tween => .expression actor image (tween.map (· + n))

namespace Board

variable (n : Nat) (b : Board)

theorem tween_shift (duration : Float32) :
    (b.shift n).tween duration = (b.tween duration).map (· + n) (shift n) := by
  rw [tween, tween, shift, Timeline.animate_shift]
  rfl

theorem progress_shift (k : Nat) : (b.shift n).progress (k + n) = b.progress k :=
  b.timeline.progress_shift n k

theorem finishTween_shift (k : Nat) :
    (b.shift n).finishTween (k + n) = (b.finishTween k).shift n := by
  rw [finishTween, shift, Timeline.finish_shift]
  rfl

theorem direction_shift (entrance : Entrance) :
    (b.shift n).direction entrance = b.direction entrance :=
  direction_eq rfl entrance

theorem update_shift (dt : Float32) : (b.shift n).update dt = (b.update dt).shift n := by
  rw [update, shift, Timeline.update_shift]
  rfl

end Board

namespace Act

variable (n : Nat) (act : Act) (b : Board)

theorem actor_shift : (act.shift n).actor = act.actor := by
  cases act <;> rfl

theorem tween?_shift : (act.shift n).tween? = act.tween?.map (· + n) := by
  cases act with
  | despawn actor exit tweens width => cases tweens <;> rfl
  | _ => rfl

theorem shown_shift (t : Float32) : (act.shift n).shown (b.shift n) t = act.shown b t := by
  funext f
  cases act with
  | despawn actor exit tweens width =>
    cases tweens with
    | none => simp only [shift, shown, Option.map_none, Board.direction_shift]
    | some ks =>
      simp only [shift, shown, Option.map_some, Prod.map_snd, Board.direction_shift,
        Board.progress_shift]
  | spawn actor image entrance tween =>
    simp only [shift, shown, Board.direction_shift]
    rfl
  | gesture actor g tween secondHalf => rfl
  | expression actor image tween => rfl

theorem apply_shift (t : Float32) : (act.shift n).apply (b.shift n) t = (act.apply b t).shift n := by
  rw [apply_eq, apply_eq, shown_shift, actor_shift]
  rfl

theorem prepare_shift :
    (act.shift n).prepare (b.shift n) = (act.prepare b).map (shift n) (Board.shift n) := by
  cases act with
  | spawn actor image entrance tween =>
    have hi (f : Figure) : (b.shift n).insert f entrance = (b.insert f entrance).shift n := rfl
    simp only [shift, prepare, Board.direction_shift, hi, Board.tween_shift]
    rfl
  | despawn actor exit tweens width =>
    simp only [shift, prepare, Board.tween_shift, Prod.map_snd]
    rfl
  | gesture actor g tween secondHalf =>
    have hm (change : Figure → Figure) :
        (b.shift n).modify actor change = (b.modify actor change).shift n := rfl
    simp only [shift, prepare, hm, Board.tween_shift]
    rfl
  | expression actor image tween =>
    simp only [shift, prepare, Board.tween_shift]
    rfl

theorem start_shift :
    (act.shift n).start (b.shift n) = (act.start b).map (shift n) (Board.shift n) := by
  simp only [start, prepare_shift, Prod.map_fst, Prod.map_snd, apply_shift]
  rfl

theorem conclude_shift :
    (act.shift n).conclude (b.shift n) =
      (act.conclude b).map id (Prod.map (shift n) (Board.shift n)) := by
  cases act with
  | gesture actor g tween secondHalf =>
    cases g with
    | nod =>
      cases secondHalf with
      | false =>
        simp only [shift, conclude, Board.tween_shift]
        rfl
      | true => rfl
    | _ => rfl
  | _ => rfl

theorem poll_shift :
    (act.shift n).poll (b.shift n) =
      (act.poll b).map id (Prod.map (shift n) (Board.shift n)) := by
  rw [poll, poll, tween?_shift]
  cases act.tween? with
  | none => rfl
  | some k =>
    simp only [Option.map_some, Board.progress_shift, apply_shift]
    split
    · rfl
    · exact conclude_shift n act _

theorem hasten_shift :
    (act.shift n).hasten (b.shift n) = (act.hasten b).map (shift n) (Board.shift n) := by
  cases act with
  | spawn actor image entrance tween =>
    cases tween with
    | none => rfl
    | some k => exact congrArg _ (b.finishTween_shift n k)
  | despawn actor exit tweens width =>
    cases tweens with
    | none => rfl
    | some ks =>
      have hk := b.finishTween_shift n ks.1
      have hj := (b.finishTween ks.1).finishTween_shift n ks.2
      rw [← hk] at hj
      exact congrArg _ hj
  | gesture actor g tween secondHalf =>
    cases tween with
    | none => rfl
    | some k => exact congrArg _ (b.finishTween_shift n k)
  | expression actor image tween =>
    cases tween with
    | none => rfl
    | some k => exact congrArg _ (b.finishTween_shift n k)

theorem finish_shift :
    (act.shift n).finish (b.shift n) = (act.finish b).map (shift n) (Board.shift n) := by
  rw [finish, finish, hasten_shift]
  rcases act.hasten b with ⟨act', b'⟩
  simp only [Prod.map_apply, apply_shift]
  cases act' <;> rfl

theorem map_shift : Task.Map (shift n) (Board.shift n) :=
  ⟨start_shift n, poll_shift n, finish_shift n⟩

end Act

def Director.shift (n : Nat) (d : Director) : Director :=
  { d with queues := d.queues.map (Act.shift n), board := d.board.shift n }

namespace Director

variable (n : Nat) (d : Director)

theorem isPresent_shift (actor : String) : (d.shift n).isPresent actor = d.isPresent actor :=
  rfl

theorem catalog_shift : (d.shift n).catalog = d.catalog :=
  rfl

theorem enqueue_shift (act : Act) (roster : List String) :
    { d.shift n with roster := roster }.enqueue (act.shift n) =
      ({ d with roster := roster }.enqueue act).shift n := by
  have hi := Queues.insert_map (Act.map_shift n) act.actor act d.board d.queues.lanes
  simp only [enqueue, Queues.enqueue, shift, Act.actor_shift, Queues.map, hi]
  rfl

theorem update_shift (dt : Float32) : (d.shift n).update dt = (d.update dt).shift n := by
  have ht := Queues.tickLanes_map (Act.map_shift n) d.queues.lanes (d.board.update dt)
  simp only [update, Queues.tick, shift, Queues.map, Board.update_shift, ht]
  rfl

theorem completeAll_shift : (d.shift n).completeAll = d.completeAll.shift n := by
  have hc := Queues.completeAll_map (Act.map_shift n) d.queues d.board
  simp only [completeAll, shift, hc]
  rfl

theorem clear_shift : (d.shift n).clear = d.clear.shift n := by
  rw [clear, completeAll_shift]
  rfl

/-- A director answers and acts in the same way whatever the number from which it counts tweens. -/
theorem obey_shift (o : Order) : (d.shift n).obey o = (d.obey o).map (shift n) id := by
  cases o with
  | spawn actor image entrance =>
    have he := d.enqueue_shift n (.toSpawn actor image entrance) (actor :: d.roster)
    rw [obey, obey, spawn, spawn, isPresent_shift, catalog_shift]
    split
    · rfl
    · exact congrArg (·, true) he
  | despawn actor exit =>
    have he := d.enqueue_shift n (.toDespawn actor exit) (d.roster.filter (· != actor))
    rw [obey, obey, despawn, despawn, isPresent_shift]
    split
    · exact congrArg (·, true) he
    · rfl
  | gesture actor g =>
    have he := d.enqueue_shift n (.toGesture actor g) d.roster
    rw [obey, obey, gesture, gesture, isPresent_shift]
    split
    · exact congrArg (·, true) he
    · rfl
  | expression actor image =>
    have he := d.enqueue_shift n (.toExpression actor image) d.roster
    rw [obey, obey, expression, expression, isPresent_shift, catalog_shift]
    split
    · rfl
    · exact congrArg (·, true) he
  | update dt => rw [obey, update_shift]; rfl
  | completeAll => rw [obey, completeAll_shift]; rfl
  | clear => rw [obey, clear_shift]; rfl

end Director

theorem Advances.settings_eq {t t' : (String → List Act) × Board} (h : Advances t t') :
    t'.2.settings = t.2.settings := by
  have ends {act : Act} {b b' : Board} (he : Ends act b b') : b'.settings = b.settings := by
    cases he with
    | @polled act' b' hp =>
      have hp : act.poll b = (.done, act', b') := hp
      have hc := act.changes_poll b
      rw [hp] at hc
      exact hc.settings
    | finished => exact (act.changes_finish b).settings
  cases h with
  | @waits book b b' actor act act' rest hb hp =>
    have hp : act.poll b = (.pending, act', b') := hp
    have hc := act.changes_poll b
    rw [hp] at hc
    exact hc.settings
  | ends hb he => exact ends he
  | @passes book b b' actor act next rest hb he =>
    exact (next.changes_start b').settings.trans (ends he)

theorem Advances.settings_run {t t' : (String → List Act) × Board}
    (h : Relation.ReflTransGen Advances t t') : t'.2.settings = t.2.settings := by
  induction h with
  | refl => rfl
  | tail _ hs ih => exact hs.settings_eq.trans ih

namespace Director

structure Equipped (catalog : Catalog) (settings : StageSettings) (d : Director) : Prop where
  ordered : Queues.Ordered d.queues.lanes
  catalog : d.catalog = catalog
  settings : d.board.settings = settings

namespace Equipped

variable {catalog : Catalog} {settings : StageSettings} {d : Director}

theorem start (catalog : Catalog) (settings : StageSettings) :
    Equipped catalog settings (.start catalog settings) :=
  ⟨.nil, rfl, rfl⟩

theorem enqueue (h : Equipped catalog settings d) (act : Act) (roster : List String) :
    Equipped catalog settings ({ d with roster := roster }.enqueue act) where
  ordered := h.ordered.insert act.actor act d.board
  catalog := h.catalog
  settings := by
    simp only [Director.enqueue, Queues.enqueue]
    by_cases hb : Queues.tasksIn d.queues.lanes act.actor = []
    · rw [(Queues.insert_of_idle hb act d.board).2]
      exact (act.changes_start d.board).settings.trans h.settings
    · rw [(Queues.insert_of_busy h.ordered hb act d.board).2]
      exact h.settings

theorem completeAll (h : Equipped catalog settings d) : Equipped catalog settings d.completeAll where
  ordered := .nil
  catalog := h.catalog
  settings :=
    (Advances.settings_run (Queues.advances_completeAll h.ordered d.board)).trans h.settings

theorem clear (h : Equipped catalog settings d) : Equipped catalog settings d.clear :=
  ⟨.nil, h.catalog, h.completeAll.settings⟩

theorem update (h : Equipped catalog settings d) (dt : Float32) :
    Equipped catalog settings (d.update dt) where
  ordered := h.ordered.tickLanes (d.board.update dt)
  catalog := h.catalog
  settings :=
    (Advances.settings_run (Queues.advances_tick h.ordered (d.board.update dt))).trans h.settings

theorem obey (h : Equipped catalog settings d) (o : Order) :
    Equipped catalog settings (d.obey o).1 := by
  cases o with
  | spawn actor image entrance =>
    rw [Director.obey, spawn]
    split
    · exact h
    · exact h.enqueue (.toSpawn actor image entrance) (actor :: d.roster)
  | despawn actor exit =>
    rw [Director.obey, despawn]
    split
    · exact h.enqueue (.toDespawn actor exit) (d.roster.filter (· != actor))
    · exact h
  | gesture actor g =>
    rw [Director.obey, gesture]
    split
    · exact h.enqueue (.toGesture actor g) d.roster
    · exact h
  | expression actor image =>
    rw [Director.obey, expression]
    split
    · exact h
    · exact h.enqueue (.toExpression actor image) d.roster
  | update dt => exact h.update dt
  | completeAll => exact h.completeAll
  | clear => exact h.clear

/-- To clear the stage is to begin anew, except that tweens are counted on. -/
theorem clear_eq (h : Equipped catalog settings d) :
    ∃ n, d.clear = (Director.start catalog settings).shift n := by
  have hd : d.clear = ⟨.empty, ⟨[], ⟨[], d.completeAll.board.timeline.last⟩,
      d.completeAll.board.settings⟩, [], d.catalog⟩ := rfl
  rw [hd, h.catalog, h.completeAll.settings]
  refine ⟨d.completeAll.board.timeline.last, ?_⟩
  simp only [Director.start, shift, Board.empty, Board.shift, Timeline.empty, Timeline.shift,
    List.map_nil, Nat.zero_add]
  rfl

end Equipped

end Director

end Dialogue
