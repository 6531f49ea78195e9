import Dialogue.Proofs.Stage.Orders
import Dialogue.Proofs.Stage.Standing
import Mathlib.Data.List.Nodup
namespace Dialogue

open Relation (ReflTransGen)

section pairs

variable {α : Type} {x y : α} {l l' : List α}

theorem not_sublist_swap (hn : l.Nodup) (h : [x, y].Sublist l) : ¬ [y, x].Sublist l := by
  induction l with
  | nil => cases h
  | cons a l ih =>
    rw [List.nodup_cons] at hn
    intro h'
    cases h with
    | cons _ h =>
      cases h' with
      | cons _ h' => exact ih hn.2 h h'
      | cons_cons _ _ => exact hn.1 (h.subset (List.mem_cons_of_mem x List.mem_cons_self))
    | cons_cons _ h =>
      have hy : y ∈ l := h.subset List.mem_cons_self
      cases h' with
      | cons _ h' => exact hn.1 (h'.subset (List.mem_cons_of_mem y List.mem_cons_self))
      | cons_cons _ _ => exact hn.1 hy

theorem sublist_pair_or (hx : x ∈ l) (hy : y ∈ l) (hne : x ≠ y) :
    [x, y].Sublist l ∨ [y, x].Sublist l := by
  induction l with
  | nil => cases hx
  | cons a l ih =>
    rcases List.mem_cons.mp hx with rfl | hxl
    · have hyl := (List.mem_cons.mp hy).resolve_left hne.symm
      exact .inl ((List.singleton_sublist.mpr hyl).cons_cons x)
    · rcases List.mem_cons.mp hy with rfl | hyl
      · exact .inr ((List.singleton_sublist.mpr hxl).cons_cons y)
      · exact (ih hxl hyl).imp (.cons a) (.cons a)

theorem eq_of_sublist_pairs (hn : l.Nodup) (hp : l.Perm l')
    (h : ∀ x y, [x, y].Sublist l ↔ [x, y].Sublist l') : l = l' := by
  apply hp.eq_of_pairwise (fun x y _ _ hxy hyx => absurd hyx (not_sublist_swap hn hxy))
  · exact List.pairwise_iff_forall_sublist.mpr fun hs => hs
  · exact List.pairwise_iff_forall_sublist.mpr fun hs => (h _ _).mpr hs

end pairs

section figures

variable {figures figures' : List Figure}

theorem nodup_ids (h : ∀ id, (figures.filter (·.id = id)).length ≤ 1) :
    (figures.map Figure.id).Nodup := by
  rw [List.nodup_iff_count_le_one]
  intro id
  rw [List.count_eq_countP, List.countP_map, List.countP_eq_length_filter]
  refine Eq.trans_le ?_ (h id)
  congr 1

theorem perm_of_filter (hn : (figures.map Figure.id).Nodup)
    (h : ∀ id, figures.filter (·.id = id) = figures'.filter (·.id = id))
    (hn' : (figures'.map Figure.id).Nodup) : figures.Perm figures' := by
  rw [List.perm_ext_iff_of_nodup (hn.of_map _) (hn'.of_map _)]
  intro f
  have hf : f ∈ figures.filter (·.id = f.id) ↔ f ∈ figures'.filter (·.id = f.id) := by rw [h]
  simpa only [List.mem_filter, decide_true, and_true] using hf

theorem eq_of_map_id (hn : (figures.map Figure.id).Nodup) (hp : figures.Perm figures')
    (h : figures.map Figure.id = figures'.map Figure.id) : figures = figures' := by
  apply List.ext_getElem hp.length_eq
  intro i hi hi'
  have hid : figures[i].id = figures'[i].id := by
    have he := congrArg (·[i]?) h
    simpa only [List.getElem?_map, List.getElem?_eq_getElem hi, List.getElem?_eq_getElem hi',
      Option.map_some, Option.some.injEq] using he
  exact List.inj_on_of_nodup_map hn (List.getElem_mem hi) (hp.mem_iff.mpr (List.getElem_mem hi')) hid

end figures

/-- Of two actors neither has still to come, or one has by a side, or both have by different sides.
-/
def Placed (book : String → List Act) (x y : String) : Prop :=
  match awaited (book x), awaited (book y) with
  | none, none => True
  | some entrance, none | none, some entrance => entrance.FromLeft ∨ entrance.FromRight
  | some entrance, some other =>
    entrance.FromLeft ∧ other.FromRight ∨ entrance.FromRight ∧ other.FromLeft

theorem Settled.length_le {s : StageSettings} {figures : List Figure} {image : Option String}
    (h : Settled s figures image) : figures.length ≤ 1 := by
  cases image with
  | none =>
    obtain rfl := h
    exact Nat.zero_le 1
  | some image =>
    obtain ⟨f, rfl, -⟩ := h
    exact Nat.le_refl 1

namespace Performance

variable {s : StageSettings} {goal : String → Option String} {b : Board} {x y : String}

theorem nodup_lineup (h : Performance s goal (fun _ => []) b) : b.lineup.Nodup := by
  apply nodup_ids
  intro id
  exact (h.scene id).length_le

theorem goal_of_mem_lineup (h : Performance s goal (fun _ => []) b) (hx : x ∈ b.lineup) :
    goal x ≠ none := by
  intro hn
  have hs := h.scene x
  rw [hn] at hs
  obtain ⟨f, hf, rfl⟩ := List.mem_map.mp hx
  have hm : f ∈ b.figuresOf f.id := List.mem_filter.mpr ⟨hf, decide_eq_true rfl⟩
  rw [show b.figuresOf f.id = [] from hs] at hm
  cases hm

theorem precedes_of_placed {book : String → List Act} (h : Performance s goal book b)
    (hp : Placed book x y) (hx : goal x ≠ none) (hy : goal y ≠ none) (hne : x ≠ y) :
    Precedes book b.lineup x y ∨ Precedes book b.lineup y x := by
  rw [Placed] at hp
  rw [Precedes, Precedes]
  cases hax : awaited (book x) with
  | none =>
    cases hay : awaited (book y) with
    | none => exact sublist_pair_or (h.stays hx hax).1 (h.stays hy hay).1 hne
    | some entrance =>
      rw [hax, hay] at hp
      exact hp.symm
  | some entrance =>
    cases hay : awaited (book y) with
    | none =>
      rw [hax, hay] at hp
      exact hp
    | some other =>
      rw [hax, hay] at hp
      exact hp.imp_right And.symm

section courses

variable {t : (String → List Act) × Board} {b' : Board}

theorem perm_of_continues (h : Performance s goal t.1 t.2)
    (hr : ReflTransGen Continues t (fun _ => [], b))
    (hr' : ReflTransGen Continues t (fun _ => [], b')) : b.figures.Perm b'.figures := by
  refine perm_of_filter (h.continues hr).nodup_lineup ?_ (h.continues hr').nodup_lineup
  intro id
  exact (h.finale_continues hr id).trans (h.finale_continues hr' id).symm

/-- Two actors end up in the same order in any course, if the order is settled. -/
theorem sublist_of_placed (h : Performance s goal t.1 t.2)
    (hr : ReflTransGen Continues t (fun _ => [], b))
    (hr' : ReflTransGen Continues t (fun _ => [], b'))
    (hp : goal x ≠ none → goal y ≠ none → x ≠ y → Placed t.1 x y)
    (hs : [x, y].Sublist b.lineup) : [x, y].Sublist b'.lineup := by
  have he := h.continues hr
  have hx : goal x ≠ none := he.goal_of_mem_lineup (hs.subset List.mem_cons_self)
  have hy : goal y ≠ none :=
    he.goal_of_mem_lineup (hs.subset (List.mem_cons_of_mem x List.mem_cons_self))
  have hne : x ≠ y := by
    rintro rfl
    exact not_sublist_swap he.nodup_lineup hs hs
  rcases h.precedes_of_placed (hp hx hy hne) hx hy hne with hxy | hyx
  · exact h.precedes_continues hr' hx hy hne hxy
  · have hs' : [y, x].Sublist b.lineup := h.precedes_continues hr hy hx hne.symm hyx
    exact absurd hs' (not_sublist_swap he.nodup_lineup hs)

theorem lineup_of_quiet (h : Performance s goal t.1 t.2)
    (hr : ReflTransGen Continues t (fun _ => [], b))
    (hr' : ReflTransGen Continues t (fun _ => [], b')) {mover : String}
    (hq : ∀ other, other ≠ mover → Quiet (t.1 other)) : b.lineup = b'.lineup :=
  (h.parade_continues hr hq).1.trans (h.parade_continues hr' hq).1.symm

end courses

end Performance

namespace Director

abbrev book (d : Director) : String → List Act :=
  Queues.tasksIn d.queues.lanes

theorem book_of_isIdle {d : Director} (h : d.isIdle = true) : d.book = fun _ => [] := by
  have hl : d.queues.lanes = [] := List.isEmpty_iff.mp h
  rw [book, hl, Queues.tasksIn_nil]

theorem continues_of_advances {t t' : (String → List Act) × Board}
    (h : ReflTransGen Advances t t') : ReflTransGen Continues t t' :=
  h.lift id fun _ _ => .advances

theorem continues_update {d : Director} (h : Queues.Ordered d.queues.lanes) (dt : Float32) :
    ReflTransGen Continues (d.book, d.board) ((d.update dt).book, (d.update dt).board) := by
  have hr : Continues (d.book, d.board) (d.book, d.board.update dt) :=
    .retimes rfl rfl fun ht => ht.update dt
  exact .head hr (continues_of_advances (Queues.advances_tick h (d.board.update dt)))

theorem continues_completeAll {d : Director} (h : Queues.Ordered d.queues.lanes) :
    ReflTransGen Continues (d.book, d.board) (d.completeAll.book, d.completeAll.board) := by
  have ha := continues_of_advances (Queues.advances_completeAll h d.board)
  exact ha.tail (.retimes rfl rfl fun _ => .finishAll _)

theorem continues_updates {d : Director} (h : Queues.Ordered d.queues.lanes)
    (dts : List Float32) :
    ReflTransGen Continues (d.book, d.board)
      ((d.follow (dts.map .update)).book, (d.follow (dts.map .update)).board) := by
  induction dts generalizing d with
  | nil => exact .refl
  | cons dt rest ih => exact (continues_update h dt).trans (ih (h.tickLanes (d.board.update dt)))

theorem isPresent_of_goal {d : Director} {past : List Order} {id : String}
    (h : goal d.roster past id ≠ none) : d.isPresent id = true := by
  rw [goal] at h
  split at h
  · rename_i hm
    exact decide_eq_true hm
  · exact absurd rfl h

/-- Skipping shows what waiting shows, every figure in every field, and in the same order unless
that was open. -/
theorem figures_skipped (catalog : Catalog) {settings : StageSettings}
    (hw : settings.actorWidth.isFinite = true) (hd : settings.moveDistance.isFinite = true)
    (orders : List Order) (dts : List Float32) :
    let d := (start catalog settings).follow orders
    let waited := d.follow (dts.map .update)
    let skipped := d.completeAll
    waited.isIdle = true →
      waited.figures.Perm skipped.figures ∧
      (∀ x y, Placed d.book x y → ([x, y].Sublist (waited.figures.map Figure.id) ↔
        [x, y].Sublist (skipped.figures.map Figure.id))) ∧
      ((∀ x y, d.isPresent x = true → d.isPresent y = true → x ≠ y → Placed d.book x y) ∨
          (∃ mover, ∀ other, other ≠ mover → Quiet (d.book other)) →
        waited.figures = skipped.figures) := by
  intro d waited skipped hi
  have h := (Staged.start catalog ⟨hw, hd⟩).follow orders
  have hp := h.performance
  have hr : ReflTransGen Continues (d.book, d.board) (fun _ => [], waited.board) := by
    have hr := continues_updates h.ordered dts
    rw [book_of_isIdle hi] at hr
    exact hr
  have hr' : ReflTransGen Continues (d.book, d.board) (fun _ => [], skipped.board) :=
    continues_completeAll h.ordered
  have hperm := hp.perm_of_continues hr hr'
  have hnodup := (hp.continues hr).nodup_lineup
  have hpairs x y (hxy : d.isPresent x = true → d.isPresent y = true → x ≠ y →
      Placed d.book x y) :
      [x, y].Sublist waited.board.lineup ↔ [x, y].Sublist skipped.board.lineup := by
    constructor
    · exact hp.sublist_of_placed hr hr' fun hx hy =>
        hxy (isPresent_of_goal hx) (isPresent_of_goal hy)
    · exact hp.sublist_of_placed hr' hr fun hx hy =>
        hxy (isPresent_of_goal hx) (isPresent_of_goal hy)
  refine ⟨hperm, fun x y hxy => hpairs x y fun _ _ _ => hxy, fun hcase => ?_⟩
  apply eq_of_map_id hnodup hperm
  rcases hcase with hall | ⟨mover, hq⟩
  · exact eq_of_sublist_pairs hnodup (hperm.map Figure.id) fun x y => hpairs x y (hall x y)
  · exact hp.lineup_of_quiet hr hr' hq

theorem figures_skipped_of_return :
    let d := (start (fun _ => true) {}).follow [.spawn "a" "p" .left, .spawn "b" "q" .center,
      .gesture "b" .nod, .despawn "a" .left, .spawn "a" "r" .bottomRight]
    let waited := d.follow ([1, 1, 1, 1].map .update)
    (({} : StageSettings).actorWidth.isFinite = true ∧
      ({} : StageSettings).moveDistance.isFinite = true ∧ waited.isIdle = true) ∧
    waited.figures = d.completeAll.figures := by
  intro d waited
  have hw : ({} : StageSettings).actorWidth.isFinite = true := by decide +kernel
  have hd : ({} : StageSettings).moveDistance.isFinite = true := by decide +kernel
  have hi : waited.isIdle = true := by decide +kernel
  refine ⟨⟨hw, hd, hi⟩, ?_⟩
  apply (figures_skipped (fun _ => true) hw hd _ [1, 1, 1, 1] hi).2.2
  left
  intro x y hx hy hne
  have hx : x ∈ ["a", "b"] := of_decide_eq_true hx
  have hy : y ∈ ["a", "b"] := of_decide_eq_true hy
  simp only [List.mem_cons, List.not_mem_nil, or_false] at hx hy
  rcases hx with rfl | rfl <;> rcases hy with rfl | rfl
  · exact absurd rfl hne
  · exact .inr trivial
  · exact .inr trivial
  · exact absurd rfl hne

/-- Both actors leave and come back by the left; skipping and waiting set them in different orders.
-/
def reentries : List Order :=
  [.spawn "a" "p" .left, .spawn "b" "q" .left, .expression "a" "r", .despawn "a" .left,
    .spawn "a" "p" .left, .despawn "b" .left, .spawn "b" "q" .left]

theorem figures_reentries :
    let d := (start (fun _ => true) {}).follow reentries
    let waited := d.follow ([1, 1, 1, 1].map .update)
    (({} : StageSettings).actorWidth.isFinite = true ∧ 0 < ({} : StageSettings).actorWidth ∧
      ({} : StageSettings).moveDistance.isFinite = true ∧ 0 < ({} : StageSettings).moveDistance ∧
      waited.isIdle = true) ∧
    waited.figures ≠ d.completeAll.figures := by
  intro d waited
  refine ⟨by decide +kernel, fun he => ?_⟩
  have hw : waited.figures.map Figure.id = ["a", "b"] := by decide +kernel
  have hs : d.completeAll.figures.map Figure.id = ["b", "a"] := by decide +kernel
  rw [he, hs] at hw
  revert hw
  decide

end Director

end Dialogue
