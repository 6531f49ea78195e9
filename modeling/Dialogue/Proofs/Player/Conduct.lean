import Dialogue.Proofs.Player.Input
import Dialogue.Proofs.Player.Turns
namespace Dialogue

/-- The faults with which a play can end whose reader writes valid text. -/
inductive PlayFault.Arises (config : Config) (options : PlayOptions) (d : Disk) : PlayFault → Prop
  | unread {path e} (he : d.read path = .error e) :
      Arises config options d (.unreadableScript path e)
  | unseen {dir e} (hc : config.charactersDir = some dir) (he : d.pictures dir = .error e) :
      Arises config options d (.unreadablePictures dir e)
  | missing {label} : Arises config options d (.narration (.labelNotFound label))
  | circling {label} : Arises config options d (.narration (.noProgress label))
  | chosenMissing {index label} : Arises config options d (.choice index (.labelNotFound label))
  | chosenCircling {index label} : Arises config options d (.choice index (.noProgress label))
  | mispicked {index count} (ha : options.auto = true) (hi : count ≤ index) :
      Arises config options d (.choice index (.invalidChoice index count))

theorem Fault.script_cases {fault : Fault} (h : fault.isRefusal = false) :
    (∃ label, fault = .labelNotFound label) ∨ ∃ label, fault = .noProgress label := by
  cases fault with
  | labelNotFound label => exact .inl ⟨label, rfl⟩
  | noProgress label => exact .inr ⟨label, rfl⟩
  | _ => cases h

namespace Turn

def taken? (t : Turn) : Option (Nat × Nat) :=
  match t.move with
  | .take index count => some (index, count)
  | _ => none

theorem taken?_eq_some {t : Turn} {taken : Nat × Nat} :
    t.taken? = some taken ↔ t.move = .take taken.1 taken.2 := by
  rw [taken?]
  cases t.move with
  | take index count => simp [Prod.ext_iff]
  | _ => simp

/-- The script is at a choice of so many options. -/
def Offers (t : Turn) (count : Nat) : Prop :=
  ∃ options, t.player.stage.narrator.cursor.current? = some (.choices options) ∧
    options.length = count

/-- What is printed where an option is taken: the list of all options, and last the text of the
option. -/
def Echoes (t : Turn) (index count : Nat) : Prop :=
  ∃ front texts text asked,
    t.player.shown = front ++ (Console.choiceLines 1 texts).map (· ++ "\n") ∧
      texts.length = count ∧ texts[index]? = some text ∧
      t.said = asked ++ ["> " ++ text ++ "\n"] ∧
      ∀ line ∈ asked, line = Player.prompt count ∨ line = "无效的选择\n"

end Turn

/-- What the turns of a play and its result are to be like. -/
structure Conduct (config : Config) (options : PlayOptions) (d : Disk) (turns : List Turn)
    (result : Except PlayFault Summary) : Prop where
  length : turns.length ≤ options.maxSteps + 1
  steps : ∀ s, result = .ok s → s.steps ≤ options.maxSteps
  arises : ∀ fault, result = .error fault → fault.Arises config options d
  /-- Only an option of the list can be one that there is not. -/
  mispicked : (∃ index count, result = .error (.choice index (.invalidChoice index count))) ↔
    options.auto = true ∧ ∃ taken ∈ turns.filterMap Turn.taken?, taken.2 ≤ taken.1
  /-- Without a reader the options are those of the list, and behind its end the first ones. -/
  picks : options.auto = true → ∀ k taken, (turns.filterMap Turn.taken?)[k]? = some taken →
    taken.1 = options.choices.getD k 0
  offers : ∀ t ∈ turns, ∀ index count, t.move = .take index count → t.Offers count
  /-- An option with which the play goes on is told. -/
  echoes : ∀ t ∈ turns, ∀ index count, t.move = .take index count →
    (∃ q, t.outcome = .goesOn q) → t.Echoes index count

theorem Conduct.of_failed {config : Config} {options : PlayOptions} {d : Disk} {fault : PlayFault}
    (h : fault.Arises config options d)
    (hm : ∀ index count, fault ≠ .choice index (.invalidChoice index count)) :
    Conduct config options d [] (.error fault) where
  length := Nat.zero_le _
  steps := nofun
  arises := by
    rintro _ ⟨⟩
    exact h
  mispicked := by
    constructor
    · rintro ⟨index, count, he⟩
      exact (hm index count (Except.error.inj he)).elim
    · rintro ⟨_, _, hn, _⟩
      cases hn
  picks := by
    intro _ k taken hn
    cases hn
  offers := List.forall_mem_nil _
  echoes := List.forall_mem_nil _

namespace Player

variable {p q : Player} {d : Disk} {input rest : List InputLine} {said refused : List String}
  {index count k : Nat} {o : Outcome} {turns : List Turn} {result : Except PlayFault Summary}
  {t : Turn} {fault : PlayFault} {s : Summary}

theorem Ready.offers (h : p.Ready) (hp : p.phase = .awaitingChoice count) :
    ∃ options, p.stage.narrator.cursor.current? = some (.choices options) ∧
      options.length = count := by
  obtain ⟨options, hc, _, hl⟩ := h.stands.coherent.choices (h.stands.narrator.trans hp)
  exact ⟨options, hc, hl⟩

theorem Acts.phase_of_take (h : p.Acts d input (.take index count) said o rest) :
    p.phase = .awaitingChoice count := by
  cases h <;> assumption

theorem pleas_asked (hp : p.phase = .awaitingChoice count) :
    ∀ line ∈ p.pleas refused, line = prompt count ∨ line = "无效的选择\n" := by
  intro line hl
  simp only [pleas, hp, rebuffs, List.mem_cons, List.mem_flatMap, List.not_mem_nil,
    or_false] at hl
  rcases hl with rfl | ⟨_, _, rfl | rfl⟩
  · exact .inl rfl
  · exact .inr rfl
  · exact .inl rfl

theorem said_of_choose (hs : q.stage.Stands (.awaitingChoice count))
    (hq : q.scripts.getLast? = some q.stage.narrator.cursor.program.id)
    (ho : ∃ p, (q.choose index).2 = .goesOn p) :
    ∃ text, q.stage.screen.choices[index]? = some text ∧
      (q.choose index).1 = ["> " ++ text ++ "\n"] := by
  obtain ⟨p, ho⟩ := ho
  have hc := chooses hs hq index
  generalize q.choose index = r at hc ho
  cases hc with
  | refused | astray => cases ho
  | taken _ ht => exact ⟨_, ht, rfl⟩

theorem Acts.said_of_take (h : p.Acts d input (.take index count) said o rest) (hr : p.Ready)
    (ho : ∃ q, o = .goesOn q) : ∃ text asked, p.stage.screen.choices[index]? = some text ∧
      said = asked ++ ["> " ++ text ++ "\n"] ∧
        ∀ line ∈ asked, line = prompt count ∨ line = "无效的选择\n" := by
  have hp := h.phase_of_take
  have hs := hr.stands_counted
  rw [hp] at hs
  cases h with
  | pick =>
    obtain ⟨text, ht, hsaid⟩ := said_of_choose (q := p.counted.picked) hs hr.script ho
    exact ⟨text, [], ht, hsaid, List.forall_mem_nil _⟩
  | name =>
    obtain ⟨text, ht, hsaid⟩ := said_of_choose (q := p.counted) hs hr.script ho
    exact ⟨text, p.pleas _, ht, by rw [hsaid], pleas_asked hp⟩

theorem Acts.none_of_stumble (h : p.Acts d input .stumble said o rest) : none ∈ input := by
  cases h with
  | stumble _ _ _ hi =>
    rw [hi]
    exact List.mem_append_right _ List.mem_cons_self

theorem Acts.pick_of_auto (h : p.Acts d input (.take index count) said o rest)
    (ha : p.options.auto = true) : index = p.picks.headD 0 := by
  cases h with
  | pick => rfl
  | name _ _ hi => cases hi.symm.trans ha

end Player

namespace Turn.Comes

variable {t : Turn} {d : Disk} {p : Player} {input : List InputLine} {index count k : Nat}

theorem offers (h : t.Comes d p input k) (hm : t.move = .take index count) : t.Offers count := by
  obtain ⟨_, _, _, ha⟩ := h.acts
  rw [hm] at ha
  exact h.ready.offers ha.phase_of_take

theorem echoes (h : t.Comes d p input k) (hm : t.move = .take index count)
    (ho : ∃ q, t.outcome = .goesOn q) : t.Echoes index count := by
  obtain ⟨_, _, _, ha⟩ := h.acts
  rw [hm] at ha
  have hp := ha.phase_of_take
  obtain ⟨front, hf⟩ := h.ready.lists count hp
  obtain ⟨text, asked, ht, hsaid, hasked⟩ := ha.said_of_take h.ready ho
  refine ⟨front.map (· ++ "\n"), _, text, asked, ?_, h.ready.stands.shown count hp, ht, hsaid,
    hasked⟩
  rw [Player.shown, hf, List.map_append]

theorem arises (h : t.Comes d p input k) (hi : ∀ line ∈ input, line.isSome = true)
    {fault : PlayFault} (ho : t.outcome = .failed fault) (config : Config) :
    fault.Arises config p.options d := by
  have hy := h.yields
  obtain ⟨lines, rest, hl, ha⟩ := h.acts
  rw [ho] at hy
  generalize hm : t.move = move at hy ha
  cases hy with
  | stumble => cases hi none (hl.subset ha.none_of_stumble)
  | unread he => exact .unread he
  | refused hauto hle => exact .mispicked (h.options ▸ hauto) hle
  | astray _ hf =>
    rcases Fault.script_cases hf with ⟨label, rfl⟩ | ⟨label, rfl⟩
    · exact .chosenMissing
    · exact .chosenCircling
  | lost _ hf =>
    rcases Fault.script_cases hf with ⟨label, rfl⟩ | ⟨label, rfl⟩
    · exact .missing
    · exact .circling

theorem failed_of_le (h : t.Comes d p input k) (hm : t.move = .take index count)
    (hle : count ≤ index) :
    t.outcome = .failed (.choice index (.invalidChoice index count)) := by
  have hy := h.yields
  rw [hm] at hy
  generalize t.outcome = o at hy
  cases hy with
  | refused => rfl
  | astray hlt => omega
  | lost hn => exact (hn index count rfl).elim
  | goesOn _ _ _ hlt => exact absurd (hlt index count rfl) (by omega)

theorem take_of_failed (h : t.Comes d p input k)
    (ho : t.outcome = .failed (.choice index (.invalidChoice index count))) :
    p.options.auto = true ∧ t.move = .take index count ∧ count ≤ index := by
  have hy := h.yields
  rw [ho] at hy
  generalize t.move = move at hy
  cases hy with
  | refused hauto hle => exact ⟨h.options ▸ hauto, rfl, hle⟩
  | astray _ hf => cases hf

theorem steps_le (h : t.Comes d p input k) {s : Summary} (ho : t.outcome = .over s) :
    s.steps ≤ p.options.maxSteps := by
  have hy := h.yields
  have hle := h.le
  rw [ho] at hy
  rw [h.options] at hle
  generalize t.move = move at hy
  cases hy with
  | halt => exact hle
  | conclude hs | quit hs => exact h.options ▸ hs

end Turn.Comes

namespace Player

variable {p : Player} {d : Disk} {input : List InputLine} {turns : List Turn} {o : Outcome}
  {result : Except PlayFault Summary}

theorem Plays.comes_of_mem (h : Plays d (.goesOn p) input turns result) (hr : p.Ready)
    (hle : p.steps ≤ p.options.maxSteps) {t : Turn} (ht : t ∈ turns) :
    ∃ k, t.Comes d p input k := by
  obtain ⟨k, hk⟩ := List.getElem?_of_mem ht
  exact ⟨k, h.comes rfl hr hle hk⟩

theorem Plays.length_le (h : Plays d (.goesOn p) input turns result) (hr : p.Ready)
    (hle : p.steps ≤ p.options.maxSteps) : p.steps + turns.length ≤ p.options.maxSteps + 1 := by
  obtain ⟨before, t, rfl, _⟩ := h.last rfl
  have hc : t.Comes d p input before.length := h.comes rfl hr hle (by simp)
  have hsteps := hc.steps
  have hmost := hc.le
  rw [hc.options] at hmost
  rw [List.length_append, List.length_singleton]
  omega

theorem Plays.mispicked_iff (h : Plays d (.goesOn p) input turns result) (hr : p.Ready)
    (hle : p.steps ≤ p.options.maxSteps) :
    (∃ index count, result = .error (.choice index (.invalidChoice index count))) ↔
      p.options.auto = true ∧ ∃ taken ∈ turns.filterMap Turn.taken?, taken.2 ≤ taken.1 := by
  obtain ⟨before, last, rfl, hb, hl⟩ := h.last rfl
  constructor
  · rintro ⟨index, count, rfl⟩
    rcases hl with ⟨_, he, _⟩ | ⟨fault, he, ho⟩
    · cases he
    · cases he
      have hmem : last ∈ before ++ [last] := by simp
      obtain ⟨k, hc⟩ := h.comes_of_mem hr hle hmem
      obtain ⟨ha, hm, hi⟩ := hc.take_of_failed ho
      refine ⟨ha, (index, count), ?_, hi⟩
      exact List.mem_filterMap.mpr ⟨last, hmem, Turn.taken?_eq_some.mpr hm⟩
  · rintro ⟨_, ⟨index, count⟩, ht, hi⟩
    obtain ⟨t, hmem, ht⟩ := List.mem_filterMap.mp ht
    obtain ⟨k, hc⟩ := h.comes_of_mem hr hle hmem
    have ho := hc.failed_of_le (Turn.taken?_eq_some.mp ht) hi
    -- A turn that fails is the last one.
    rcases List.mem_append.mp hmem with hmem | hmem
    · obtain ⟨q, hq⟩ := hb t hmem
      cases ho.symm.trans hq
    · rw [List.mem_singleton.mp hmem] at ho
      rcases hl with ⟨s, rfl, hs⟩ | ⟨fault, rfl, hf⟩
      · cases ho.symm.trans hs
      · cases ho.symm.trans hf
        exact ⟨index, count, rfl⟩

/-- Without a reader the options are taken from the list, and then the first one always. -/
theorem Plays.picks (h : Plays d o input turns result) {p : Player} (ho : o = .goesOn p)
    (hr : p.Ready) (ha : p.options.auto = true) {k : Nat} {taken : Nat × Nat}
    (ht : (turns.filterMap Turn.taken?)[k]? = some taken) : taken.1 = p.picks.getD k 0 := by
  induction h generalizing p k with
  | ended | failed => cases ho
  | @turn p input move said outcome rest turns result hacts h ih =>
    cases ho
    have later {j : Nat} (hj : (turns.filterMap Turn.taken?)[j]? = some taken) :
        taken.1 = (p.spare move).getD j 0 := by
      cases hacts.yields hr with
      | goesOn _ hq hsp =>
        rw [← hsp.picks ha]
        exact ih rfl hq (by rw [hsp.options]; exact ha) hj
      | halt | conclude | quit | stumble | unread | refused | astray | lost =>
        cases h
        cases hj
    cases move with
    | take index count =>
      change ((index, count) :: turns.filterMap Turn.taken?)[k]? = some taken at ht
      cases k with
      | zero =>
        cases ht
        rw [hacts.pick_of_auto ha]
        cases p.picks <;> rfl
      | succ k =>
        rw [later ht, spare]
        cases p.picks <;> rfl
    | halt | conclude | quit | stumble | proceed | travel =>
      exact later ht

theorem Plays.conduct (h : Plays d (.goesOn p) input turns result) (hr : p.Ready)
    (hs : p.steps = 0) (hi : ∀ line ∈ input, line.isSome = true)
    (hp : p.picks = p.options.choices) (config : Config) :
    Conduct config p.options d turns result := by
  have hle : p.steps ≤ p.options.maxSteps := by omega
  obtain ⟨before, last, rfl, _, hl⟩ := h.last rfl
  obtain ⟨k, hlast⟩ := h.comes_of_mem hr hle (List.mem_append_right before (.head _))
  constructor
  · have hlen := h.length_le hr hle
    omega
  · rintro s rfl
    rcases hl with ⟨_, he, ho⟩ | ⟨_, he, _⟩
    · cases he
      exact hlast.steps_le ho
    · cases he
  · rintro fault rfl
    rcases hl with ⟨_, he, _⟩ | ⟨_, he, ho⟩
    · cases he
    · cases he
      exact hlast.arises hi ho config
  · exact h.mispicked_iff hr hle
  · intro ha k taken ht
    rw [← hp]
    exact h.picks rfl hr ha ht
  · intro t ht index count hm
    obtain ⟨_, hc⟩ := h.comes_of_mem hr hle ht
    exact hc.offers hm
  · intro t ht index count hm ho
    obtain ⟨_, hc⟩ := h.comes_of_mem hr hle ht
    exact hc.echoes hm ho

/-- A play of a reader who writes valid text goes by the rules, and comes to an end within its
steps. -/
theorem run_conduct (config : Config) (options : PlayOptions) (d : Disk) (path text : String) :
    let played := run config options d path (inputLines text.toUTF8)
    ∃ turns,
      Plays d (begin config options d path) (inputLines text.toUTF8) turns played.2 ∧
      played.1 = turns.flatMap Turn.lines ∧ Conduct config options d turns played.2 := by
  intro played
  obtain ⟨turns, hp, hout⟩ := run_plays config options d path (inputLines text.toUTF8)
  refine ⟨turns, hp, hout, ?_⟩
  have hb := begins config options d path
  change Plays d _ _ turns played.2 at hp
  generalize begin config options d path = o at hp hb
  generalize played.2 = result at hp
  cases hb with
  | unread he =>
    cases hp
    exact .of_failed (.unread he) nofun
  | unseen hc he =>
    cases hp
    exact .of_failed (.unseen hc he) nofun
  | lost hf =>
    cases hp
    rcases Fault.script_cases hf with ⟨label, rfl⟩ | ⟨label, rfl⟩
    · exact .of_failed .missing nofun
    · exact .of_failed .circling nofun
  | stop hr ho hs hpicks =>
    rw [← ho] at hpicks ⊢
    exact hp.conduct hr hs (fun _ hl => isSome_of_mem_inputLines hl) hpicks config

end Player

end Dialogue
