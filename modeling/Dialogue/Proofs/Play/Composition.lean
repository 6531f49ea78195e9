import Dialogue.Proofs.Play.Flow
namespace Dialogue

def Cue.setsScene : Cue → Bool
  | .showSpeaker _ => true
  | .showBackground _ => true
  | .spawnActor .. => true
  | .despawnActor .. => true
  | .playGesture .. => true
  | .changeExpression .. => true
  | _ => false

theorem Action.setsScene_cues {a : Action} (h : ∀ phase, a.next ≠ .wait phase) (s : Store) :
    ∀ c ∈ a.cues s, c.setsScene = true := by
  rw [← List.all_eq_true]
  cases a with
  | message content => exact (h _ rfl).elim
  | choices options =>
    rw [next] at h
    rw [cues]
    split at h
    · next ho => rw [if_pos ho]; rfl
    · exact (h _ rfl).elim
  | gesture actor gesture => cases gesture <;> rfl
  | _ => rfl

/-- The cues that come last before a stop, and the place of the stop. -/
inductive Stop.Closing (c : Cursor) : Stop → List Cue → Prop
  | text {content shown} (hc : c.current? = some (.message content)) :
      Closing c (.waits (.awaitingAdvance true)) [.showText shown]
  | choice {options choices} (hc : c.current? = some (.choices options)) (ho : options ≠ [])
      (ht : choices.map Choice.target = options.map ChoiceOption.target) :
      Closing c (.waits (.awaitingChoice options.length)) [.presentChoices choices]
  | ends {stop} (hs : ∀ phase, stop ≠ .waits phase) : Closing c stop []

theorem Action.closing_of_wait {a : Action} {phase : Phase} (hn : a.next = .wait phase)
    {c : Cursor} (hc : c.current? = some a) (s : Store) :
    Stop.Closing c (.waits phase) (a.cues s) := by
  rcases eq_of_next_wait hn with ⟨⟨content, rfl⟩, rfl⟩ | ⟨options, rfl, ho, rfl⟩
  · exact .text hc
  · rw [cues, if_neg ho]
    apply Stop.Closing.choice hc ho
    rw [List.map_map]
    rfl

/-- The cues of a stretch set the scene, but for the cue of a wait at the end. -/
def Stretch.Composed (st : Stretch) : Prop :=
  ∃ scene last, st.cues = scene ++ last ∧ (∀ c ∈ scene, c.setsScene = true) ∧
    st.stop.Closing st.cursor last

theorem Stretch.Composed.after {st : Stretch} (h : st.Composed) {cues : List Cue}
    (hc : ∀ c ∈ cues, c.setsScene = true) : (st.after cues).Composed := by
  obtain ⟨scene, last, he, hs, hl⟩ := h
  refine ⟨cues ++ scene, last, ?_, ?_, hl⟩
  · rw [Stretch.after, he, List.append_assoc]
  · exact List.forall_mem_append.mpr ⟨hc, hs⟩

theorem Cursor.Plays.composed {fresh : List Nat} {c : Cursor} {s : Store} {st : Stretch}
    (h : Plays fresh c s st) : st.Composed := by
  induction h with
  | ends => exact ⟨[], [], rfl, List.forall_mem_nil _, .ends nofun⟩
  | @waits fresh c s a phase hp hn =>
    have hc : c.reached.current? = some a := hp
    exact ⟨[], a.cues s, rfl, List.forall_mem_nil _, Action.closing_of_wait hn hc s⟩
  | leaves _ hn | missing _ hn | again _ hn =>
    refine ⟨_, [], (List.append_nil _).symm, ?_, .ends nofun⟩
    exact Action.setsScene_cues (by simp [hn]) _
  | proceeds _ hn _ ih | jumps _ hn _ _ _ ih =>
    exact ih.after (Action.setsScene_cues (by simp [hn]) _)

end Dialogue
