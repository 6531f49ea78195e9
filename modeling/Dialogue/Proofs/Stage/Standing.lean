import Dialogue.Proofs.Stage.Lineup
namespace Dialogue

open Relation (ReflTransGen)

def Entrance.FromLeft : Entrance → Prop
  | .left | .bottomLeft => True
  | _ => False

def Entrance.FromRight : Entrance → Prop
  | .right | .bottomRight => True
  | _ => False

theorem Board.slot_of_left {entrance : Entrance} (h : entrance.FromLeft) (count : Nat) :
    slot count entrance = 0 := by
  cases entrance with
  | left | bottomLeft => rfl
  | _ => exact h.elim

theorem Board.slot_of_right {entrance : Entrance} (h : entrance.FromRight) (count : Nat) :
    slot count entrance = count := by
  cases entrance with
  | right | bottomRight => rfl
  | _ => exact h.elim

/-- The entrance by which acts that have not started bring their actor for the last time. -/
def lastEntrance (waiting : List Act) : Option Entrance :=
  (waiting.filterMap Act.entrance?).getLast?

theorem lastEntrance_cons_of_some {waiting : List Act} {entrance : Entrance}
    (h : lastEntrance waiting = some entrance) (act : Act) :
    lastEntrance (act :: waiting) = some entrance := by
  rw [lastEntrance, List.filterMap_cons]
  split
  · exact h
  · rw [List.getLast?_cons, show (waiting.filterMap Act.entrance?).getLast? = _ from h]
    rfl

theorem lastEntrance_cons_of_none {waiting : List Act} (h : lastEntrance waiting = none)
    (act : Act) : lastEntrance (act :: waiting) = act.entrance? := by
  rw [lastEntrance, List.getLast?_eq_none_iff] at h
  rw [lastEntrance, List.filterMap_cons, h]
  cases act.entrance? <;> rfl

theorem arrival_of_ne {act : Act} {waiting : List Act}
    (h : lastEntrance waiting ≠ lastEntrance (act :: waiting)) :
    ∃ entrance, act.entrance? = some entrance ∧ lastEntrance waiting = none := by
  cases hw : lastEntrance waiting with
  | some entrance => exact absurd (hw.trans (lastEntrance_cons_of_some hw act).symm) h
  | none =>
    rw [hw, lastEntrance_cons_of_none hw] at h
    obtain ⟨entrance, he⟩ := Option.ne_none_iff_exists'.mp h.symm
    exact ⟨entrance, he, rfl⟩

def awaited (acts : List Act) : Option Entrance :=
  lastEntrance acts.tail

theorem Plan.enters {waiting : List Act} {image goal : Option String}
    (h : Plan waiting image goal) (hi : image = none) (hg : goal ≠ none) :
    lastEntrance waiting ≠ none := by
  cases h with
  | nil => exact absurd hi hg
  | @cons act acts before between after ht hr =>
    subst hi
    cases ht with
    | spawn actor image entrance =>
      intro hn
      rw [lastEntrance, List.getLast?_eq_none_iff] at hn
      cases hn

theorem Scene.stays {b : Board} {id image : String} {acts : List Act}
    (h : Scene b id (some image) acts) (hn : awaited acts = none) :
    id ∈ b.lineup ∧ ∀ act ∈ acts.head?, ¬ act.Exits := by
  cases acts with
  | nil =>
    obtain ⟨f, hf, -⟩ := h
    refine ⟨Board.mem_lineup ?_, nofun⟩
    rw [hf]
    exact List.cons_ne_nil _ _
  | cons act waiting =>
    obtain ⟨hid, before, hu, hp⟩ := h
    cases before with
    | none => exact absurd hn (hp.enters rfl (Option.some_ne_none image))
    | some before =>
      have hs := hu.settles
      rw [hid act List.mem_cons_self] at hs
      obtain ⟨f, hf, -⟩ := hs
      constructor
      · apply Board.mem_lineup
        intro he
        rw [he] at hf
        cases hf
      · intro first hm he
        obtain rfl : act = first := Option.some.inj hm
        rw [he.filterMap_closed] at hf
        cases hf

theorem sublist_vacates {x y : String} {lineup : List String} (h : [x, y].Sublist lineup)
    {act : Act} (hx : act.actor = x → ¬ act.Exits) (hy : act.actor = y → ¬ act.Exits) :
    [x, y].Sublist (act.vacates lineup) := by
  cases act with
  | despawn actor exit tweens width =>
    have hx : x ≠ actor := fun he => hx he.symm trivial
    have hy : y ≠ actor := fun he => hy he.symm trivial
    have hf : [x, y].filter (· != actor) = [x, y] := by
      rw [List.filter_eq_self, List.forall_mem_cons, List.forall_mem_singleton]
      exact ⟨bne_iff_ne.mpr hx, bne_iff_ne.mpr hy⟩
    exact hf ▸ h.filter (· != actor)
  | _ => exact h

theorem mem_vacates {x : String} {lineup : List String} (h : x ∈ lineup) {act : Act}
    (hx : act.actor ≠ x) : x ∈ act.vacates lineup := by
  cases act with
  | despawn actor exit tweens width => exact List.mem_filter.mpr ⟨h, bne_iff_ne.mpr hx.symm⟩
  | _ => exact h

theorem sublist_seats (act : Act) (lineup : List String) : lineup.Sublist (act.seats lineup) := by
  rw [Act.seats]
  split
  · exact List.sublist_insertIdx _ _ _
  · exact .refl _

theorem sublist_seats_left {act : Act} {entrance : Entrance} (he : act.entrance? = some entrance)
    (hl : entrance.FromLeft) {y : String} {lineup : List String} (hy : y ∈ lineup) :
    [act.actor, y].Sublist (act.seats lineup) := by
  rw [Act.seats, he]
  simp only [Board.slot_of_left hl, List.insertIdx_zero]
  exact (List.singleton_sublist.mpr hy).cons_cons act.actor

theorem sublist_seats_right {act : Act} {entrance : Entrance} (he : act.entrance? = some entrance)
    (hr : entrance.FromRight) {x : String} {lineup : List String} (hx : x ∈ lineup) :
    [x, act.actor].Sublist (act.seats lineup) := by
  rw [Act.seats, he]
  simp only [Board.slot_of_right hr, List.insertIdx_length_self]
  exact (List.singleton_sublist.mpr hx).append (.refl [act.actor])

theorem awaited_update {book : String → List Act} {actor : String} {acts : List Act}
    (h : awaited acts = awaited (book actor)) (z : String) :
    awaited (Function.update book actor acts z) = awaited (book z) := by
  by_cases hz : z = actor
  · rw [hz, Function.update_self, h]
  · rw [Function.update_of_ne hz]

/-- One actor will stand to the left of another: as they stand, or as those who come take their
places. -/
def Precedes (book : String → List Act) (lineup : List String) (x y : String) : Prop :=
  match awaited (book x), awaited (book y) with
  | none, none => [x, y].Sublist lineup
  | some entrance, none => entrance.FromLeft
  | none, some entrance => entrance.FromRight
  | some entrance, some other => entrance.FromLeft ∧ other.FromRight

theorem Precedes.congr {book book' : String → List Act} {lineup lineup' : List String}
    {x y : String} (h : Precedes book lineup x y) (hx : awaited (book' x) = awaited (book x))
    (hy : awaited (book' y) = awaited (book y))
    (hl : awaited (book x) = none → awaited (book y) = none → [x, y].Sublist lineup →
      [x, y].Sublist lineup') : Precedes book' lineup' x y := by
  rw [Precedes] at h ⊢
  rw [hx, hy]
  cases hax : awaited (book x) with
  | none =>
    cases hay : awaited (book y) with
    | none =>
      rw [hax, hay] at h
      exact hl hax hay h
    | some entrance =>
      rw [hax, hay] at h
      exact h
  | some entrance =>
    cases hay : awaited (book y) with
    | none =>
      rw [hax, hay] at h
      exact h
    | some other =>
      rw [hax, hay] at h
      exact h

section arrival

variable {book book' : String → List Act} {lineup lineup' : List String} {x y : String}
  {entrance : Entrance}

theorem Precedes.arrives_first (h : Precedes book lineup x y)
    (hx : awaited (book x) = some entrance) (hx' : awaited (book' x) = none)
    (hy : awaited (book' y) = awaited (book y))
    (hl : awaited (book y) = none → entrance.FromLeft → [x, y].Sublist lineup') :
    Precedes book' lineup' x y := by
  rw [Precedes] at h ⊢
  rw [hx', hy]
  cases hay : awaited (book y) with
  | none =>
    rw [hx, hay] at h
    exact hl hay h
  | some other =>
    rw [hx, hay] at h
    exact h.2

theorem Precedes.arrives_second (h : Precedes book lineup x y)
    (hy : awaited (book y) = some entrance) (hy' : awaited (book' y) = none)
    (hx : awaited (book' x) = awaited (book x))
    (hl : awaited (book x) = none → entrance.FromRight → [x, y].Sublist lineup') :
    Precedes book' lineup' x y := by
  rw [Precedes] at h ⊢
  rw [hx, hy']
  cases hax : awaited (book x) with
  | none =>
    rw [hax, hy] at h
    exact hl hax h
  | some other =>
    rw [hax, hy] at h
    exact h.1

theorem Precedes.arrives {actor : String} {acts : List Act} {next : Act}
    (h : Precedes book lineup x y) (hne : x ≠ y) (hname : next.actor = actor)
    (he : next.entrance? = some entrance) (hbefore : awaited (book actor) = some entrance)
    (hafter : awaited acts = none)
    (hx : x ≠ actor → awaited (book x) = none → x ∈ lineup')
    (hy : y ≠ actor → awaited (book y) = none → y ∈ lineup')
    (hl : awaited (book x) = none → awaited (book y) = none → [x, y].Sublist lineup →
      [x, y].Sublist lineup') :
    Precedes (Function.update book actor acts) (next.seats lineup') x y := by
  have hself : awaited (Function.update book actor acts actor) = none := by
    rw [Function.update_self]
    exact hafter
  have hother {z : String} (hz : z ≠ actor) :
      awaited (Function.update book actor acts z) = awaited (book z) := by
    rw [Function.update_of_ne hz]
  by_cases hax : x = actor
  · subst hax
    apply h.arrives_first hbefore hself (hother hne.symm)
    intro hay hleft
    rw [← hname]
    exact sublist_seats_left he hleft (hy hne.symm hay)
  · by_cases hay : y = actor
    · subst hay
      apply h.arrives_second hbefore hself (hother hne)
      intro hax' hright
      rw [← hname]
      exact sublist_seats_right he hright (hx hax hax')
    · apply h.congr (hother hax) (hother hay)
      intro hax hay hs
      exact (hl hax hay hs).trans (sublist_seats next lineup')

end arrival

namespace Performance

variable {s : StageSettings} {goal : String → Option String} {book : String → List Act} {b : Board}
  {x y : String}

theorem stays (h : Performance s goal book b) (hx : goal x ≠ none)
    (hn : awaited (book x) = none) :
    x ∈ b.lineup ∧ ∀ act ∈ (book x).head?, ¬ act.Exits := by
  obtain ⟨image, hi⟩ := Option.ne_none_iff_exists'.mp hx
  have hsc := h.scene x
  rw [hi] at hsc
  exact hsc.stays hn

/-- Who will stand to the left of another still will after a step. -/
theorem precedes_advance {t t' : (String → List Act) × Board} (h : Performance s goal t.1 t.2)
    (ha : Advances t t') (hx : goal x ≠ none) (hy : goal y ≠ none) (hne : x ≠ y)
    (hp : Precedes t.1 t.2.lineup x y) : Precedes t'.1 t'.2.lineup x y := by
  obtain ⟨book, b⟩ := t
  obtain ⟨book', b'⟩ := t'
  have hf := h.files ha
  -- Whoever is on stage to the end is not one whose act takes the actor away.
  have keeps {actor : String} {act : Act} {rest : List Act} (hb : book actor = act :: rest)
      {z : String} (hz : goal z ≠ none) (hn : awaited (book z) = none) :
      act.actor = z → ¬ act.Exits := by
    rintro rfl
    have hid : act.actor = actor := h.actor_eq hb List.mem_cons_self
    apply (h.stays hz hn).2
    change act ∈ (book act.actor).head?
    rw [hid, hb]
    rfl
  have there {z : String} (hz : goal z ≠ none) (hn : awaited (book z) = none) : z ∈ b.lineup :=
    (h.stays hz hn).1
  change Precedes book b.lineup x y at hp
  change Precedes book' b'.lineup x y
  change Files (book, b.lineup) (book', b'.lineup) at hf
  generalize b.lineup = lineup at hf hp there
  generalize b'.lineup = lineup' at hf
  cases hf with
  | @waits _ _ actor act act' rest hb hid he =>
    have hw : awaited (act' :: rest) = awaited (book actor) := by rw [hb]; rfl
    exact hp.congr (awaited_update hw x) (awaited_update hw y) fun _ _ hs => hs
  | @ends _ _ actor act hb =>
    have hw : awaited [] = awaited (book actor) := by rw [hb]; rfl
    exact hp.congr (awaited_update hw x) (awaited_update hw y) fun hax hay hs =>
      sublist_vacates hs (keeps hb hx hax) (keeps hb hy hay)
  | @passes _ _ actor act next next' rest hb hid he =>
    have hstay : awaited (book x) = none → awaited (book y) = none → [x, y].Sublist lineup →
        [x, y].Sublist (act.vacates lineup) := by
      intro hax hay hs
      exact sublist_vacates hs (keeps hb hx hax) (keeps hb hy hay)
    have hbefore : awaited (book actor) = lastEntrance (next :: rest) := by rw [hb]; rfl
    by_cases hsame : lastEntrance rest = lastEntrance (next :: rest)
    · have hw : awaited (next' :: rest) = awaited (book actor) := hsame.trans hbefore.symm
      apply hp.congr (awaited_update hw x) (awaited_update hw y)
      intro hax hay hs
      exact (hstay hax hay hs).trans (sublist_seats next _)
    · obtain ⟨entrance, hnext, hrest⟩ := arrival_of_ne hsame
      rw [lastEntrance_cons_of_none hrest, hnext] at hbefore
      have hact : act.actor = actor := h.actor_eq hb List.mem_cons_self
      have hname : next.actor = actor :=
        h.actor_eq hb (List.mem_cons_of_mem act List.mem_cons_self)
      have hmem {z : String} (hz : goal z ≠ none) (hza : z ≠ actor)
          (hn : awaited (book z) = none) : z ∈ act.vacates lineup :=
        mem_vacates (there hz hn) (by rw [hact]; exact hza.symm)
      exact hp.arrives hne hname hnext hbefore hrest (hmem hx) (hmem hy) hstay

end Performance

/-- The actors on stage once the acts of one actor, the first of which is under way, are over. -/
def parade (lineup : List String) : List Act → List String
  | [] => lineup
  | act :: waiting =>
    waiting.foldl (fun lineup act => act.vacates (act.seats lineup)) (act.vacates lineup)

/-- The acts neither bring their actor, once the first one is under way, nor take the actor away. -/
def Quiet (acts : List Act) : Prop :=
  (∀ act ∈ acts, ¬ act.Exits) ∧ ∀ act ∈ acts.tail, act.entrance? = none

theorem Files.parade_eq {u u' : (String → List Act) × List String} (h : Files u u')
    {mover : String} (hq : ∀ other, other ≠ mover → Quiet (u.1 other)) :
    parade u'.2 (u'.1 mover) = parade u.2 (u.1 mover) ∧
      ∀ other, other ≠ mover → Quiet (u'.1 other) := by
  have keeps {book : String → List Act} {actor : String} {acts : List Act}
      (hq : ∀ other, other ≠ mover → Quiet (book other)) (ha : actor ≠ mover → Quiet acts) :
      ∀ other, other ≠ mover → Quiet (Function.update book actor acts other) := by
    intro other hne
    by_cases ho : other = actor
    · subst ho
      rw [Function.update_self]
      exact ha hne
    · rw [Function.update_of_ne ho]
      exact hq other hne
  cases h with
  | @waits book lineup actor act act' rest hb hid he =>
    constructor
    · by_cases hm : mover = actor
      · subst hm
        simp only [Function.update_self, hb, parade, Act.vacates_congr hid he]
      · simp only [Function.update_of_ne hm]
    · apply keeps hq
      intro hne
      have ha := hq actor hne
      simp only [Quiet, hb, List.forall_mem_cons, List.tail_cons] at ha ⊢
      exact ⟨⟨mt he.mp ha.1.1, ha.1.2⟩, ha.2⟩
  | @ends book lineup actor act hb =>
    constructor
    · by_cases hm : mover = actor
      · subst hm
        simp only [Function.update_self, hb, parade, List.foldl_nil]
      · have ha := (hq actor (Ne.symm hm)).1 act (by simp only [hb, List.mem_cons_self])
        simp only [Function.update_of_ne hm, Act.vacates_of_stays ha]
    · exact keeps hq fun _ => ⟨nofun, nofun⟩
  | @passes book lineup actor act next next' rest hb hid he =>
    constructor
    · by_cases hm : mover = actor
      · subst hm
        simp only [Function.update_self, hb, parade, List.foldl_cons, Act.vacates_congr hid he]
      · have ha := hq actor (Ne.symm hm)
        simp only [Quiet, hb, List.forall_mem_cons, List.tail_cons] at ha
        simp only [Function.update_of_ne hm, Act.vacates_of_stays ha.1.1,
          Act.seats_of_none ha.2.1]
    · apply keeps hq
      intro hne
      have ha := hq actor hne
      simp only [Quiet, hb, List.forall_mem_cons, List.tail_cons] at ha ⊢
      exact ⟨⟨mt he.mp ha.1.2.1, ha.1.2.2⟩, ha.2.2⟩

namespace Performance

variable {s : StageSettings} {goal : String → Option String} {t t' : (String → List Act) × Board}

theorem precedes_continues (h : Performance s goal t.1 t.2) (hr : ReflTransGen Continues t t')
    {x y : String} (hx : goal x ≠ none) (hy : goal y ≠ none) (hne : x ≠ y)
    (hp : Precedes t.1 t.2.lineup x y) : Precedes t'.1 t'.2.lineup x y := by
  induction hr with
  | refl => exact hp
  | tail hr hc ih =>
    cases hc with
    | advances ha => exact (h.continues hr).precedes_advance ha hx hy hne ih
    | @retimes book b b' hs hf ht =>
      have hl : b'.lineup = b.lineup := congrArg (List.map _) hf
      exact hl ▸ ih

theorem parade_continues (h : Performance s goal t.1 t.2) (hr : ReflTransGen Continues t t')
    {mover : String} (hq : ∀ other, other ≠ mover → Quiet (t.1 other)) :
    parade t'.2.lineup (t'.1 mover) = parade t.2.lineup (t.1 mover) ∧
      ∀ other, other ≠ mover → Quiet (t'.1 other) := by
  induction hr with
  | refl => exact ⟨rfl, hq⟩
  | tail hr hc ih =>
    obtain ⟨hl, hq⟩ := ih
    cases hc with
    | advances ha =>
      obtain ⟨hl', hq'⟩ := ((h.continues hr).files ha).parade_eq hq
      exact ⟨hl'.trans hl, hq'⟩
    | @retimes book b b' hs hf ht =>
      have hlineup : b'.lineup = b.lineup := congrArg (List.map _) hf
      exact ⟨hlineup ▸ hl, hq⟩

end Performance

end Dialogue
