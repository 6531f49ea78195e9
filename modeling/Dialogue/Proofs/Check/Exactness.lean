import Dialogue.Proofs.Check.Walk
import Dialogue.Proofs.Play.Course
namespace Dialogue

open Relation

namespace Cursor

variable {fresh : List Nat} {c : Cursor} {s : Store} {r : Stretch} {home : Nat} {label : String}

/-- On the way round a loop the jump that has been taken is the first one to be taken again. -/
theorem Plays.round (h : Plays fresh c s r) (ha : c.program.action? home = some (.goto label))
    (hl : c.program.OnLoop home) (hr : ReflTransGen c.program.Leads home c.next)
    (hh : home ∉ fresh)
    (hb : ∀ i, i ∉ fresh → i < c.program.size → i ≠ home →
      TransGen (c.program.LeadsPast home) i c.next) :
    r.stop = .fails (.noProgress label) ∧ r.cursor.position = some home := by
  induction h with
  | ends hp =>
    refine (Program.not_onLoop hr ?_ hl).elim
    rw [Program.follow?, show Program.action? _ _ = none from hp]
    rfl
  | waits hp hn =>
    refine (Program.not_onLoop hr ?_ hl).elim
    simp only [Program.follow?_of_action hp, hn]
  | leaves hp hn =>
    refine (Program.not_onLoop hr ?_ hl).elim
    simp only [Program.follow?_of_action hp, hn]
  | missing hp hn hf hj =>
    refine (Program.not_onLoop hr ?_ hl).elim
    simp only [Program.follow?_of_action hp, hn]
    exact Option.map_eq_none_iff.mp hj
  | @again fresh c s a target hp hn hf =>
    have he : c.next = home := by
      by_contra hne
      exact hl.not_past hr (hb _ hf (next_lt_of_peek? hp) hne)
    rw [← he] at ha
    cases hp.symm.trans ha
    cases hn
    exact ⟨rfl, congrArg some he⟩
  | @proceeds fresh c s a r hp hn _ ih =>
    have hs := leads_reached hp hn
    have hne : c.next ≠ home := by
      rintro rfl
      cases hp.symm.trans ha
      cases hn
    refine ih ha hl (hr.tail hs) hh ?_
    intro i hi hlt hih
    exact (hb i hi hlt hih).tail ⟨hs, hne⟩
  | @jumps fresh c s a target d r hp hn hf hj _ ih =>
    have hs := leads_jump hp hn hj
    have hd := program_jump hj
    have hne : c.next ≠ home := by
      rintro rfl
      exact hh hf
    rw [hd] at ih
    refine ih ha hl (hr.tail hs) (fun hm => hh (List.mem_of_mem_erase hm)) ?_
    intro i hi hlt hih
    by_cases he : i = c.next
    · subst he
      exact .single ⟨hs, hne⟩
    · have hf : i ∉ fresh := fun hm => hi ((List.mem_erase_of_ne he).mpr hm)
      exact (hb i hf hlt hih).tail ⟨hs, hne⟩

theorem Plays.noProgress_of_onLoop (h : Plays (List.range c.program.size) c s r)
    (ha : c.peek? = some (.goto label)) (hl : c.program.OnLoop c.next) :
    r.stop = .fails (.noProgress label) ∧ r.cursor.position = some c.next := by
  generalize hfresh : List.range c.program.size = fresh at h
  cases h with
  | jumps hp hn hf hd hr =>
    cases ha.symm.trans hp
    cases hn
    have hs := leads_jump ha rfl hd
    have hp : _ = c.program := program_jump hd
    rw [← hp] at hl hs
    refine hr.round ?_ hl (.single hs) ?_ ?_
    · rw [hp]
      exact ha
    · rw [← hfresh]
      exact List.nodup_range.not_mem_erase
    · intro i hi hlt hne
      rw [List.mem_erase_of_ne hne, ← hfresh, List.mem_range, ← hp] at hi
      exact absurd hlt hi
  | again hp hn hf =>
    rw [← hfresh, List.mem_range] at hf
    exact absurd (next_lt_of_peek? hp) hf
  | missing hp hn hf hd =>
    refine (Program.not_onLoop .refl ?_ hl).elim
    simp only [Program.follow?_of_action hp, hn]
    exact Option.map_eq_none_iff.mp hd
  | ends hp => cases hp.symm.trans ha
  | waits hp hn =>
    cases ha.symm.trans hp
    cases hn
  | leaves hp hn =>
    cases ha.symm.trans hp
    cases hn
  | proceeds hp hn =>
    cases ha.symm.trans hp
    cases hn

end Cursor

namespace Course

/-- The places of the actions that a course with a guard takes, at most so many. -/
def places : Nat → Course → List Nat
  | 0, _ => []
  | k + 1, x =>
    match x.cursor.peek? with
    | none => []
    | some _ =>
      x.cursor.next :: match x.step true with
        | .inl _ => []
        | .inr y => places k y

theorem leads_of_step {guarded : Bool} {x y : Course} (h : x.step guarded = .inr y) :
    y.cursor.program = x.cursor.program ∧
      x.cursor.program.Leads x.cursor.next y.cursor.next := by
  rw [step] at h
  cases hp : x.cursor.peek? with
  | none => simp [hp] at h
  | some a =>
    simp only [hp] at h
    cases hn : a.next with
    | proceed =>
      simp only [hn, Sum.inr.injEq] at h
      subst h
      exact ⟨rfl, Cursor.leads_reached hp hn⟩
    | wait phase => simp [hn] at h
    | leave change => simp [hn] at h
    | jump target =>
      simp only [hn] at h
      split at h
      · cases h
      · split at h
        · next d hd =>
          cases h
          exact ⟨Cursor.program_jump hd, Cursor.leads_jump hp hn hd⟩
        · cases h

theorem leads_of_places {k i : Nat} {x : Course} (h : i ∈ x.places k) :
    ReflTransGen x.cursor.program.Leads x.cursor.next i := by
  induction k generalizing x with
  | zero => cases h
  | succ k ih =>
    rw [places] at h
    cases hp : x.cursor.peek? with
    | none => simp [hp] at h
    | some a =>
      simp only [hp, List.mem_cons] at h
      rcases h with rfl | h
      · exact .refl
      · cases hs : x.step true with
        | inl s => simp [hs] at h
        | inr y =>
          simp only [hs] at h
          obtain ⟨hy, hl⟩ := leads_of_step hs
          have hr := ih h
          rw [hy] at hr
          exact .head hl hr

end Course

namespace Narrator

/-- The places of the actions that a tick takes. -/
def places (n : Narrator) (input : Option Input) : List Nat :=
  match n.opening input with
  | .inl _ => []
  | .inr (m, _) => (Course.mk [] m.cursor m.store []).places m.reach

theorem noProgress_of_endless {n : Narrator}
    (h : n.cursor.program.Endless n.cursor.next) :
    ∃ label, n.stretch.stop = .fails (.noProgress label) := by
  by_contra hn
  have hu := Course.run_unguarded (n.run_guarded_stretch 0) (not_exists.mp hn)
  cases hu.symm.trans (Course.run_of_endless h)

theorem cursor_settle (n : Narrator) (due : List Cue) (s : Stretch) :
    (n.settle due s).1.cursor = s.cursor := by
  rw [settle]
  cases s.stop <;> rfl

/-- With the input the narrator plays on, and the action at this place comes first. -/
def StartsAt (n : Narrator) (input : Option Input) (i : Nat) : Prop :=
  ∃ m due, n.opening input = .inr (m, due) ∧ m.cursor.next = i

theorem startsAt_next {n : Narrator} {input : Option Input} (hw : n.phase.isWaiting = false)
    (hf : n.phase ≠ .finished) (hc : ∀ index, input ≠ some (.choose index)) :
    n.StartsAt input n.cursor.next := by
  refine ⟨n, [], ?_, rfl⟩
  cases input with
  | none =>
    rw [opening_none hf, hw]
    rfl
  | some input =>
    rw [opening_of_some hf]
    cases input with
    | choose index => exact (hc index rfl).elim
    | advance | revealFinished =>
      cases hp : n.phase with
      | finished => exact (hf hp).elim
      | idle | running =>
        simp only [receive, hp, Phase.isWaiting, Bool.false_eq_true, if_false]
      | awaitingAdvance revealing | awaitingChoice count =>
        rw [hp] at hw
        cases hw

variable {n : Narrator} {input : Option Input} {i : Nat} {label : String}

theorem mem_silentLoops_of_tick (h : (n.tick input).2 = .error (.noProgress label)) :
    ∃ i, (n.tick input).1.cursor.position = some i ∧
      (i, label) ∈ n.cursor.program.silentLoops := by
  rcases n.tick_cases input with ha | ⟨m, due, hr, he⟩
  · exact (ha.ne_noProgress label h).elim
  · rw [he, settle_fails] at h
    rw [he, cursor_settle, ← hr.program_eq]
    obtain ⟨i, hi, ha, _, hl⟩ := m.plays_stretch.loop_of_noProgress (Cursor.tracked_range _) h
    exact ⟨i, hi, Program.mem_silentLoops_iff.mpr ⟨ha, hl⟩⟩

theorem tick_of_silentLoop (hs : n.StartsAt input i)
    (h : (i, label) ∈ n.cursor.program.silentLoops) :
    (n.tick input).2 = .error (.noProgress label) ∧
      (n.tick input).1.cursor.position = some i := by
  obtain ⟨m, due, ho, rfl⟩ := hs
  have hr := n.opens input
  rw [ho] at hr
  rw [← hr.program_eq, Program.mem_silentLoops_iff] at h
  obtain ⟨hf, hp⟩ := m.plays_stretch.noProgress_of_onLoop h.1 h.2
  rw [tick_of_play ho, settle_fails, cursor_settle]
  exact ⟨hf, hp⟩

theorem tick_of_place (hi : i ∈ n.places input)
    (h : (i, label) ∈ n.cursor.program.silentLoops) :
    ∃ label', (n.tick input).2 = .error (.noProgress label') := by
  rw [places] at hi
  have hr := n.opens input
  cases ho : n.opening input with
  | inl answer => simp [ho] at hi
  | inr e =>
    obtain ⟨m, due⟩ := e
    simp only [ho] at hi
    rw [ho] at hr
    rw [← hr.program_eq, Program.mem_silentLoops_iff] at h
    obtain ⟨label', hf⟩ := noProgress_of_endless ⟨i, Course.leads_of_places hi, h.2⟩
    refine ⟨label', ?_⟩
    rw [tick_of_play ho, settle_fails]
    exact hf

/-- The check for silent loops is exact: a tick that starts at a jump makes no progress just if the
jump is listed. -/
theorem silentLoops_exact (p : Program) :
    ((∀ i target, p.action? i = some (.goto target) → ∀ d,
        (Program.Walk.start p i target).run p i ((p.size + 1) * (p.size + 1) + d) =
          some (decide ((i, target) ∈ p.silentLoops))) ∧
      p.silentLoops.Pairwise fun e f => e.1 < f.1) ∧
    ∀ (n : Narrator) (input : Option Input), n.cursor.program = p →
      (n.phase.isWaiting = false → n.phase ≠ .finished →
        (∀ index, input ≠ some (.choose index)) → n.StartsAt input n.cursor.next) ∧
      (∀ i, n.StartsAt input i → ∀ label, (i, label) ∈ p.silentLoops ↔
        (n.tick input).2 = .error (.noProgress label) ∧
          (n.tick input).1.cursor.position = some i) ∧
      (∀ label, (n.tick input).2 = .error (.noProgress label) →
        ∃ i, (n.tick input).1.cursor.position = some i ∧ (i, label) ∈ p.silentLoops) ∧
      ∀ i ∈ n.places input, ∀ label, (i, label) ∈ p.silentLoops →
        ∃ label', (n.tick input).2 = .error (.noProgress label') := by
  refine ⟨⟨?_, p.pairwise_silentLoops⟩, ?_⟩
  · intro i target ha d
    exact Program.run_walk ha d
  · rintro n input rfl
    refine ⟨startsAt_next, ?_, ?_, ?_⟩
    · intro i hs label
      constructor
      · exact tick_of_silentLoop hs
      · rintro ⟨hf, hp⟩
        obtain ⟨j, hj, hm⟩ := mem_silentLoops_of_tick hf
        cases hp.symm.trans hj
        exact hm
    · intro label h
      exact mem_silentLoops_of_tick h
    · intro i hi label h
      exact tick_of_place hi h

end Narrator

def Program.carousel : Program :=
  .ofActions "carousel"
    [.goto "in", .label "out", .goto "in", .message "!", .label "in", .goto "out"] []

/-- A tick that starts at a jump into a loop stops at the first jump of the loop. -/
theorem Narrator.carousel_turns :
    (Program.carousel.action? 0 = some (.goto "in") ∧
      (Program.Walk.start .carousel 0 "in").run .carousel 0 49 = some false) ∧
    (start .carousel .empty true).StartsAt none 0 ∧
      ((start .carousel .empty true).tick none).2 = .error (.noProgress "out") ∧
      (∃ i, ((start .carousel .empty true).tick none).1.cursor.position = some i ∧
        (i, "out") ∈ Program.carousel.silentLoops) ∧
      5 ∈ (start .carousel .empty true).places none ∧ (5, "out") ∈ Program.carousel.silentLoops := by
  have hl : Program.carousel.silentLoops = [(2, "in"), (5, "out")] := by decide +kernel
  have h0 : (0, "in") ∉ Program.carousel.silentLoops := by rw [hl]; decide
  have h5 : (5, "out") ∈ Program.carousel.silentLoops := by rw [hl]; decide
  have ha : Program.carousel.action? 0 = some (.goto "in") := by decide +kernel
  have hf : (start .carousel .empty true).phase ≠ .finished := by decide
  have ht : ((start .carousel .empty true).tick none).2 = .error (.noProgress "out") := by
    have hk : ((Course.mk [] (start .carousel .empty true).cursor
        (start .carousel .empty true).store []).run true
          ((start .carousel .empty true).reach + 0)).map Stretch.stop =
            some (.fails (.noProgress "out")) := by decide +kernel
    rw [run_guarded_stretch] at hk
    rw [tick_of_play (opening_none hf)]
    exact settle_fails.mpr (Option.some.inj hk)
  have hp : 5 ∈ (start .carousel .empty true).places none := by decide +kernel
  obtain ⟨⟨hw, _⟩, hr⟩ := silentLoops_exact .carousel
  obtain ⟨hs, _, hm, _⟩ := hr (start .carousel .empty true) none rfl
  refine ⟨⟨ha, ?_⟩, hs rfl hf fun _ => (Option.some_ne_none _).symm, ht, hm "out" ht, hp, h5⟩
  exact (hw 0 "in" ha 0).trans (congrArg some (decide_eq_false h0))

end Dialogue
