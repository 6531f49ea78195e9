import Dialogue.Proofs.Play.Coherence
import Dialogue.Proofs.Play.Variation
namespace Dialogue

/-- A cue without the texts in which variables are shown. -/
def Cue.outline : Cue → Cue
  | .showText _ => .showText ""
  | .showSpeaker _ => .showSpeaker none
  | .presentChoices choices => .presentChoices (choices.map fun c => { c with text := "" })
  | cue => cue

def Tick.outline (t : Tick) : Tick :=
  { t with cues := t.cues.map Cue.outline }

def Stretch.outline (r : Stretch) : List Cue × Cursor × Stop :=
  (r.cues.map Cue.outline, r.cursor, r.stop)

theorem Action.outline_cues (a : Action) (s t : Store) :
    (a.cues s).map Cue.outline = (a.cues t).map Cue.outline := by
  cases a with
  | choices options =>
    rw [cues, cues]
    split
    · rfl
    · simp only [List.map_cons, List.map_nil, Cue.outline, List.map_map]
      rfl
  | gesture actor gesture => cases gesture <;> rfl
  | _ => rfl

theorem Stretch.outline_after {r r' : Stretch} {cues cues' : List Cue}
    (hc : cues.map Cue.outline = cues'.map Cue.outline) (hr : r.outline = r'.outline) :
    (r.after cues).outline = (r'.after cues').outline := by
  simp only [outline, Prod.mk.injEq] at hr
  simp only [outline, after, List.map_append, hc, hr]

namespace Cursor

/-- Where playing on comes to, and what it asks of the stage but for the texts, does not depend on
the variables. -/
theorem outline_play (fresh : List Nat) (c : Cursor) (s t : Store) :
    (c.play fresh s).outline = (c.play fresh t).outline := by
  induction fresh, c, s using play.induct generalizing t with
  | case1 fresh c s hp => rw [play_end hp, play_end hp]; rfl
  | case2 fresh c s a hp here s' hn ih =>
    simp only [play_some hp, hn]
    exact Stretch.outline_after (a.outline_cues s t) (ih _)
  | case3 fresh c s a hp phase hn =>
    simp only [play_some hp, hn, Stretch.outline, a.outline_cues s t]
  | case4 fresh c s a hp change hn =>
    simp only [play_some hp, hn, Stretch.outline, a.outline_cues s t]
  | case5 fresh c s a hp here s' target hn hf there hj ih =>
    have hj' : c.reached.jump? target = some there := hj
    simp only [play_some hp, hn, if_pos hf, hj']
    exact Stretch.outline_after (a.outline_cues s t) (ih _)
  | case6 fresh c s a hp here target hn hf hj =>
    have hj' : c.reached.jump? target = none := hj
    simp only [play_some hp, hn, if_pos hf, hj', Stretch.outline, a.outline_cues s t]
  | case7 fresh c s a hp target hn hf =>
    simp only [play_some hp, hn, if_neg hf, Stretch.outline, a.outline_cues s t]

end Cursor

namespace Narrator

def withStore (t : Store) (n : Narrator) : Narrator :=
  n.vary (fun _ => t) id

theorem settle_outline {n m : Narrator} {s : Store} (hm : m = n.withStore s) (due : List Cue)
    {r r' : Stretch} (hr : r.outline = r'.outline) :
    (∃ t, (m.settle due r').1 = (n.settle due r).1.withStore t) ∧
      (n.settle due r).2.map Tick.outline = (m.settle due r').2.map Tick.outline := by
  simp only [Stretch.outline, Prod.mk.injEq] at hr
  obtain ⟨hcues, hcursor, hstop⟩ := hr
  subst hm
  refine ⟨⟨r'.store, ?_⟩, ?_⟩
  · rw [settle, settle, ← hstop]
    cases r.stop <;> simp only [withStore, vary, hcursor, id_eq]
  · rw [settle, settle, ← hstop]
    cases r.stop <;> simp only [Except.map, Tick.outline, List.map_append, hcues]

theorem tick_withStore (n : Narrator) (s : Store) (input : Option Input) :
    (∃ t, ((n.withStore s).tick input).1 = (n.tick input).1.withStore t) ∧
      (n.tick input).2.map Tick.outline = ((n.withStore s).tick input).2.map Tick.outline := by
  have ho : (n.withStore s).opening input = _ := opening_vary fun _ => rfl
  rw [tick_eq, tick_eq, ho]
  cases n.opening input with
  | inl answer => exact ⟨⟨s, rfl⟩, rfl⟩
  | inr p => exact settle_outline rfl p.2 (Cursor.outline_play _ _ _ _)

theorem after_withStore (n : Narrator) (s : Store) (inputs : List (Option Input)) :
    ∃ t, (n.withStore s).after inputs = (n.after inputs).withStore t := by
  induction inputs generalizing n s with
  | nil => exact ⟨s, rfl⟩
  | cons input inputs ih =>
    obtain ⟨t, ht⟩ := (n.tick_withStore s input).1
    obtain ⟨u, hu⟩ := ih (n.tick input).1 t
    refine ⟨u, ?_⟩
    rw [after, List.foldl_cons, ht]
    exact hu

/-- Whatever the variables are, the same inputs lead to the same phase and place, with the same cues
but for the texts. -/
theorem tick_outline_eq (p : Program) (s t : Store) (autoAdvance : Bool)
    (inputs : List (Option Input)) :
    let n := (start p s autoAdvance).after inputs
    let m := (start p t autoAdvance).after inputs
    n.phase = m.phase ∧ n.cursor = m.cursor ∧
      ∀ input, (n.tick input).2.map Tick.outline = (m.tick input).2.map Tick.outline := by
  intro n m
  obtain ⟨u, hu⟩ := (start p s autoAdvance).after_withStore t inputs
  have hm : m = n.withStore u := hu
  rw [hm]
  refine ⟨rfl, rfl, ?_⟩
  intro input
  exact (n.tick_withStore u input).2

end Narrator

end Dialogue
