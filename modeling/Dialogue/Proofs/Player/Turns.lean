import Dialogue.Proofs.Player.Moves
namespace Dialogue

theorem Config.pictures_of_catalog {c : Config} {d : Disk} {fault : PlayFault}
    (h : c.catalog d = .error fault) : ∃ dir e, c.charactersDir = some dir ∧
      d.pictures dir = .error e ∧ fault = .unreadablePictures dir e := by
  rw [catalog] at h
  cases hc : c.charactersDir with
  | none =>
    rw [hc] at h
    cases h
  | some dir =>
    simp only [hc] at h
    cases hd : d.pictures dir with
    | ok names =>
      rw [hd] at h
      cases h
    | error e =>
      rw [hd] at h
      cases h
      exact ⟨dir, e, rfl, hd, rfl⟩

/-- A turn of a play, with what is printed in it behind the lines that the stage has shown. -/
structure Turn where
  player : Player
  move : Move
  said : List String
  outcome : Outcome

def Turn.lines (t : Turn) : List String :=
  t.player.shown ++ t.said

namespace Player

/-- A whole play, turn by turn, without a bound on the turns. -/
inductive Plays (d : Disk) :
    Outcome → List InputLine → List Turn → Except PlayFault Summary → Prop
  | ended {summary input} : Plays d (.over summary) input [] (.ok summary)
  | failed {fault input} : Plays d (.failed fault) input [] (.error fault)
  | turn {p input move said outcome rest turns result}
      (ha : p.Acts d input move said outcome rest) (h : Plays d outcome rest turns result) :
      Plays d (.goesOn p) input (⟨p, move, said, outcome⟩ :: turns) result

end Player

/-- A turn that comes so many turns after a stop of a player. -/
structure Turn.Comes (t : Turn) (d : Disk) (p : Player) (input : List InputLine) (k : Nat) :
    Prop where
  ready : t.player.Ready
  options : t.player.options = p.options
  steps : t.player.steps = p.steps + k
  le : t.player.steps ≤ t.player.options.maxSteps
  acts : ∃ lines rest, lines <:+ input ∧
    t.player.Acts d lines t.move t.said t.outcome rest

theorem Turn.Comes.yields {t : Turn} {d : Disk} {p : Player} {input : List InputLine} {k : Nat}
    (h : t.Comes d p input k) : Player.Yields d t.player t.move t.outcome := by
  obtain ⟨_, _, _, ha⟩ := h.acts
  exact ha.yields h.ready

namespace Player

variable {p : Player} {d : Disk} {input : List InputLine} {turns : List Turn} {o : Outcome}
  {result : Except PlayFault Summary}

theorem Plays.comes (h : Plays d o input turns result) {p : Player} (ho : o = .goesOn p)
    (hr : p.Ready) (hle : p.steps ≤ p.options.maxSteps) {k : Nat} {t : Turn}
    (ht : turns[k]? = some t) : t.Comes d p input k := by
  induction h generalizing p k with
  | ended | failed => cases ho
  | @turn _ _ move said outcome rest turns result ha h ih =>
    cases ho
    cases k with
    | zero =>
      cases ht
      exact ⟨hr, rfl, rfl, hle, _, _, List.suffix_rfl, ha⟩
    | succ k =>
      cases ha.yields hr with
      | @goesOn _ q hs hq hsp _ =>
        have hc := ih rfl hq (by rw [hsp.steps, hsp.options]; exact hs) ht
        obtain ⟨lines, left, hl, hacts⟩ := hc.acts
        refine ⟨hc.ready, hc.options.trans hsp.options, ?_, hc.le, lines, left,
          hl.trans ha.suffix, hacts⟩
        rw [hc.steps, hsp.steps]
        omega
      | halt | conclude | quit | stumble | unread | refused | astray | lost =>
        cases h
        cases ht

theorem Plays.last (h : Plays d o input turns result) {p : Player} (ho : o = .goesOn p) :
    ∃ before t, turns = before ++ [t] ∧ (∀ t ∈ before, ∃ q, t.outcome = .goesOn q) ∧
      ((∃ s, result = .ok s ∧ t.outcome = .over s) ∨
        ∃ fault, result = .error fault ∧ t.outcome = .failed fault) := by
  induction h generalizing p with
  | ended | failed => cases ho
  | @turn _ _ move said outcome rest turns result ha h ih =>
    cases h with
    | ended => exact ⟨[], _, rfl, List.forall_mem_nil _, .inl ⟨_, rfl, rfl⟩⟩
    | failed => exact ⟨[], _, rfl, List.forall_mem_nil _, .inr ⟨_, rfl, rfl⟩⟩
    | turn =>
      obtain ⟨before, t, he, hb, hl⟩ := ih rfl
      rw [he]
      exact ⟨_ :: before, t, rfl, List.forall_mem_cons.mpr ⟨⟨_, rfl⟩, hb⟩, hl⟩

theorem exists_plays {k : Nat} (ho : ∀ p, o = .goesOn p → p.Ready ∧
    p.steps ≤ p.options.maxSteps ∧ p.options.maxSteps < p.steps + k) (input : List InputLine) :
    ∃ turns, Plays d o input turns (play d k o input).2 ∧
      (play d k o input).1 = turns.flatMap Turn.lines := by
  induction k generalizing o input with
  | zero =>
    rcases o with s | fault | p
    · exact ⟨[], .ended, rfl⟩
    · exact ⟨[], .failed, rfl⟩
    · obtain ⟨_, _, _⟩ := ho p rfl
      omega
  | succ k ih =>
    rcases o with s | fault | p
    · exact ⟨[], .ended, rfl⟩
    · exact ⟨[], .failed, rfl⟩
    · obtain ⟨hr, hle, hlt⟩ := ho p rfl
      obtain ⟨move, said, ha, hsaid⟩ := hr.acts d input
      have hrest : ∀ q, (p.step d input).2.1 = .goesOn q → q.Ready ∧
          q.steps ≤ q.options.maxSteps ∧ q.options.maxSteps < q.steps + k := by
        intro q hq
        have hy := ha.yields hr
        rw [hq] at hy
        cases hy with
        | goesOn hs hready hsp =>
          rw [hsp.steps, hsp.options]
          exact ⟨hready, hs, by omega⟩
      obtain ⟨turns, hp, hlines⟩ := ih hrest (p.step d input).2.2
      refine ⟨_, .turn ha hp, ?_⟩
      rw [play, List.flatMap_cons, ← hlines, Turn.lines, ← hsaid]

/-- A play begins at the first stop of its script, if there is one and the files can be read. -/
inductive Begins (config : Config) (options : PlayOptions) (d : Disk) (path : String) :
    Outcome → Prop
  | unread {e} (he : d.read path = .error e) :
      Begins config options d path (.failed (.unreadableScript path e))
  | unseen {dir e} (hc : config.charactersDir = some dir) (he : d.pictures dir = .error e) :
      Begins config options d path (.failed (.unreadablePictures dir e))
  | lost {fault : Fault} (hf : fault.isRefusal = false) :
      Begins config options d path (.failed (.narration fault))
  | stop {p : Player} (hr : p.Ready) (ho : p.options = options) (hs : p.steps = 0)
      (hp : p.picks = options.choices) : Begins config options d path (.goesOn p)

theorem start_follows (config : Config) (options : PlayOptions) (catalog : Catalog)
    (path text : String) : ∃ q : Player, q.options = options ∧ q.steps = 0 ∧
      q.picks = options.choices ∧
        (start config options catalog path text).Follows q := by
  refine ⟨⟨config, options, .build (.parse path text) .empty (.start config.stage.charsPerSecond)
    catalog config.stage, .idle, 0, options.choices, [path]⟩, rfl, rfl, rfl, ?_⟩
  exact follows_resume (Stage.lands_start (.parse path text) _ _ _ _) rfl

theorem begins (config : Config) (options : PlayOptions) (d : Disk) (path : String) :
    Begins config options d path (begin config options d path) := by
  rw [begin]
  cases he : d.read path with
  | error e => exact .unread he
  | ok text =>
    cases hk : config.catalog d with
    | error e =>
      obtain ⟨dir, fault, hc, hd, rfl⟩ := Config.pictures_of_catalog hk
      exact .unseen hc hd
    | ok catalog =>
      obtain ⟨q, ho, hs, hp, hf⟩ := start_follows config options catalog path text
      dsimp only
      generalize start config options catalog path text = o at hf
      cases hf with
      | failed hf => exact .lost hf
      | goesOn hl =>
        exact .stop hl.ready (hl.options.trans ho) (hl.steps.trans hs) (hl.picks.trans hp)

/-- Every play comes to an end, and its turns are those of the run. -/
theorem run_plays (config : Config) (options : PlayOptions) (d : Disk) (path : String)
    (input : List InputLine) :
    ∃ turns, Plays d (begin config options d path) input turns
        (run config options d path input).2 ∧
      (run config options d path input).1 = turns.flatMap Turn.lines := by
  rw [run]
  apply exists_plays
  intro p hp
  have hb := begins config options d path
  rw [hp] at hb
  cases hb with
  | stop hr ho hs =>
    rw [ho, hs]
    exact ⟨hr, Nat.zero_le _, by omega⟩

end Player

end Dialogue
