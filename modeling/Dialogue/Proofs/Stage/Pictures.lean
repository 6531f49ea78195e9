import Dialogue.Proofs.Check.Pictures
import Dialogue.Proofs.Stage.Prompts
namespace Dialogue

def Order.image? : Order → Option String
  | .spawn _ image _ => some image
  | .expression _ image => some image
  | _ => none

/-- The order that a cue is, if it is for the director. -/
def Cue.order? (c : Cue) : Option Order :=
  match c.receiver with
  | .inl _ => none
  | .inr o => some o

theorem Cue.image?_of_order {c : Cue} {o : Order} {image : String} (ho : c.order? = some o)
    (hi : o.image? = some image) : ∃ kind, c.image? = some (kind, image) := by
  cases c with
  | spawnActor | changeExpression =>
    cases ho
    cases hi
    exact ⟨_, rfl⟩
  | despawnActor | playGesture =>
    cases ho
    cases hi
  | showText | completeReveal | showSpeaker | presentChoices | clearChoices | showBackground =>
    cases ho

namespace Director

def suits (d : Director) : Order → Bool
  | .spawn actor .. => !d.isPresent actor
  | .despawn actor _ => d.isPresent actor
  | .gesture actor _ => d.isPresent actor
  | .expression actor _ => d.isPresent actor
  | .update _ => true
  | .completeAll => true
  | .clear => true

theorem answer_eq (d : Director) (o : Order) :
    (d.obey o).2 = (d.suits o && o.image?.all d.catalog) := by
  cases o with
  | spawn actor image entrance =>
    simp only [obey, spawn, suits, Order.image?, Option.all_some]
    cases d.isPresent actor <;> cases d.catalog image <;> rfl
  | despawn actor exit =>
    simp only [obey, despawn, suits]
    cases d.isPresent actor <;> rfl
  | gesture actor g =>
    simp only [obey, Director.gesture, suits]
    cases d.isPresent actor <;> rfl
  | expression actor image =>
    simp only [obey, expression, suits, Order.image?, Option.all_some]
    cases d.isPresent actor <;> cases d.catalog image <;> rfl
  | update | completeAll | clear => rfl

/-- The orders that a director is given, each with the director as he was before it. -/
def asked (d : Director) : List Order → List (Director × Order)
  | [] => []
  | o :: r => (d, o) :: (d.obey o).1.asked r

theorem map_snd_asked (d : Director) (orders : List Order) :
    (d.asked orders).map Prod.snd = orders := by
  induction orders generalizing d with
  | nil => rfl
  | cons o rest ih => rw [asked, List.map_cons, ih]

namespace Equipped

variable {catalog : Catalog} {settings : StageSettings} {d : Director}

theorem follow (h : Equipped catalog settings d) (orders : List Order) :
    Equipped catalog settings (d.follow orders) := by
  induction orders generalizing d with
  | nil => exact h
  | cons o rest ih => exact ih (h.obey o)

theorem asked (h : Equipped catalog settings d) {orders : List Order} {x : Director × Order}
    (hx : x ∈ d.asked orders) : Equipped catalog settings x.1 := by
  induction orders generalizing d with
  | nil => cases hx
  | cons o rest ih =>
    rcases List.mem_cons.mp hx with rfl | hx
    · exact h
    · exact ih (h.obey o) hx

end Equipped

end Director

/-- The program that is played behind some instructions, of which each may bring another one. -/
def Program.latest (p : Program) (instructions : List Instruction) : Program :=
  instructions.foldl (fun p i =>
    match i with
    | .reload q => q
    | _ => p) p

theorem Program.latest_cases (p : Program) (instructions : List Instruction) :
    p.latest instructions = p ∨ .reload (p.latest instructions) ∈ instructions := by
  induction instructions generalizing p with
  | nil => exact .inl rfl
  | cons i rest ih =>
    cases i with
    | reload q =>
      right
      change Instruction.reload (q.latest rest) ∈ _
      rcases ih q with h | h
      · rw [h]
        exact List.mem_cons_self
      · exact List.mem_cons_of_mem _ h
    | start | update | advance | choose | skip | takeChange =>
      exact (ih p).imp_right (List.mem_cons_of_mem _)

namespace Stage

variable {σ : Type} [Screen σ]

theorem director_performAll (s : Stage σ) (cues : List Cue) :
    (cues.foldl perform s).director = s.director.follow (cues.filterMap Cue.order?) := by
  induction cues generalizing s with
  | nil => rfl
  | cons c cues ih =>
    rw [List.foldl_cons, ih, perform_eq, List.filterMap_cons, Cue.order?]
    cases c.receiver <;> rfl

/-- The orders that the director is given at an instruction. -/
def orders (s : Stage σ) (i : Instruction) : List (Director × Order) :=
  (s.prepare i).director.asked ((s.heard i).filterMap Cue.order?)

/-- The places of the actions that the script takes at an instruction, if it is not faulty. -/
def acted (s : Stage σ) (i : Instruction) : List Nat :=
  match (s.prepare i).prompt i with
  | some input =>
    match ((s.prepare i).narrator.tick input).2 with
    | .ok _ => (s.prepare i).narrator.places input
    | .error _ => []
  | none => []

theorem director_carryOut (s : Stage σ) (i : Instruction) :
    (s.carryOut i).1.director = (s.prepare i).director.follow ((s.orders i).map Prod.snd) := by
  rw [carryOut_eq, orders, Director.map_snd_asked, heard]
  cases (s.prepare i).prompt i with
  | none => rfl
  | some input =>
    dsimp only [Prod.map_fst, id]
    rw [tick_eq_react]
    rcases (s.prepare i).narrator.tick input with ⟨n, fault | t⟩
    · rfl
    · exact director_performAll _ t.cues

theorem heard_start (s : Stage σ) :
    s.heard .start = match (s.narrator.tick none).2 with
      | .ok t => t.cues
      | .error _ => [] :=
  rfl

theorem images_heard (s : Stage σ) (i : Instruction) :
    (s.heard i).filterMap Cue.image? =
      (s.acted i).filterMap (s.prepare i).narrator.cursor.program.imageAt? := by
  rw [heard, acted]
  cases (s.prepare i).prompt i with
  | none => rfl
  | some input =>
    dsimp only
    cases ht : ((s.prepare i).narrator.tick input).2 with
    | error fault => rfl
    | ok t => exact Narrator.images_tick ht

theorem program_carryOut (s : Stage σ) (i : Instruction) :
    (s.carryOut i).1.narrator.cursor.program = (s.prepare i).narrator.cursor.program := by
  rw [carryOut_eq]
  cases (s.prepare i).prompt i with
  | none => rfl
  | some input =>
    dsimp only [Prod.map_fst, id]
    rw [tick_eq_react, narrator_react, Narrator.program_tick]

theorem program_prepare (s : Stage σ) (i : Instruction) :
    (s.prepare i).narrator.cursor.program = s.narrator.cursor.program.latest [i] := by
  cases i <;> rfl

theorem program_follow (s : Stage σ) (instructions : List Instruction) :
    (s.follow instructions).narrator.cursor.program =
      s.narrator.cursor.program.latest instructions := by
  induction instructions generalizing s with
  | nil => rfl
  | cons i rest ih =>
    rw [follow, List.foldl_cons]
    refine (ih _).trans ?_
    rw [program_carryOut, program_prepare]
    rfl

theorem equipped_prepare {s : Stage σ} {catalog : Catalog} {settings : StageSettings}
    (h : s.director.Equipped catalog settings) (i : Instruction) :
    (s.prepare i).director.Equipped catalog settings := by
  cases i with
  | start | advance | choose | takeChange => exact h
  | update dt => exact h.update dt
  | skip => exact h.completeAll
  | reload p => exact h.clear

theorem equipped_follow {s : Stage σ} {catalog : Catalog} {settings : StageSettings}
    (h : s.director.Equipped catalog settings) (instructions : List Instruction) :
    (s.follow instructions).director.Equipped catalog settings := by
  induction instructions generalizing s with
  | nil => exact h
  | cons i rest ih =>
    apply ih
    rw [director_carryOut]
    exact (equipped_prepare h i).follow _

/-- The check for pictures is complete: whatever is brought on the stage is listed, and no order
lacks a picture unreported. -/
theorem pictures_checked (id text : String) (store : Store) (screen : σ) (catalog : Catalog)
    (settings : StageSettings) (past : List Instruction) (i : Instruction) :
    let s := (build (.parse id text) store screen catalog settings).follow past
    let p := (Program.parse id text).latest (past ++ [i])
    let shown := (s.acted i).filterMap p.reference?
    (s.heard i).filterMap Cue.image? = shown.map Reference.picture ∧
      (∀ r ∈ shown, r ∈ p.references) ∧
      (s.carryOut i).1.director = (s.prepare i).director.follow ((s.orders i).map Prod.snd) ∧
      (Illustrated catalog id text →
        (∀ q, .reload q ∈ past ++ [i] → ∃ id' text', q = .parse id' text' ∧
          Illustrated catalog id' text') →
        ∀ x ∈ s.orders i, (x.1.obey x.2).2 = x.1.suits x.2) := by
  intro s p shown
  have hp : (s.prepare i).narrator.cursor.program = p := by
    rw [program_prepare, program_follow]
    exact List.foldl_append.symm
  have hi := s.images_heard i
  rw [hp] at hi
  refine ⟨?_, ?_, s.director_carryOut i, ?_⟩
  · rw [hi, Program.pictures_references]
  · intro r hr
    obtain ⟨j, _, hj⟩ := List.mem_filterMap.mp hr
    exact Program.mem_references hj
  · rintro ht hq ⟨d, o⟩ hx
    have hd : d.catalog = catalog :=
      (equipped_prepare (equipped_follow (.start catalog settings) past) i |>.asked hx).catalog
    have ho : o ∈ (s.heard i).filterMap Cue.order? := by
      rw [← Director.map_snd_asked (s.prepare i).director (List.filterMap _ _)]
      exact List.mem_map_of_mem hx
    obtain ⟨c, hc, hco⟩ := List.mem_filterMap.mp ho
    have hl : ∃ id' text', p = .parse id' text' ∧ Illustrated catalog id' text' := by
      rcases Program.latest_cases (.parse id text) (past ++ [i]) with h | h
      · exact ⟨id, text, h, ht⟩
      · exact hq _ h
    obtain ⟨id', text', hp', ht'⟩ := hl
    have hall : o.image?.all catalog = true := by
      cases hoi : o.image? with
      | none => rfl
      | some image =>
        obtain ⟨kind, hk⟩ := Cue.image?_of_order hco hoi
        have hm : (kind, image) ∈ (s.heard i).filterMap Cue.image? :=
          List.mem_filterMap.mpr ⟨c, hc, hk⟩
        rw [hi] at hm
        obtain ⟨j, _, hj⟩ := List.mem_filterMap.mp hm
        rw [hp'] at hj
        exact ht'.exists_image hj
    rw [Director.answer_eq, hd, hall, Bool.and_true]

/-- The picture of the one who comes is there, and so she is let on the stage. -/
theorem pictures_checked_inn :
    let text := "[char img=mina id=anna]\nGood evening."
    let catalog := Catalog.ofNames ["mina"]
    let s := build (.parse "inn" text) .empty (Console.start 45) catalog {}
    (Illustrated catalog "inn" text ∧
      ∀ q, .reload q ∈ [] ++ [Instruction.start] → ∃ id' text', q = .parse id' text' ∧
        Illustrated catalog id' text') ∧
      ∃ d, s.orders .start = [(d, .spawn "anna" "mina" .center)] ∧
        (d.spawn "anna" "mina" .center).2 = true := by
  intro text catalog s
  have hl : Script.linesOf text =
      [(1, .tag "char" "img=mina id=anna"), (2, .prose "Good evening.")] := by
    decide +kernel
  have h₁ : Script.attribute? "img=mina id=anna".toList =
      some ⟨"img".toList, "mina".toList, " id=anna".toList⟩ := rfl
  have h₂ : Script.attribute? (' ' :: "id=anna".toList) = none := rfl
  have h₃ : Script.attribute? "id=anna".toList = some ⟨"id".toList, "anna".toList, []⟩ := rfl
  have ha : Script.attributes "img=mina id=anna".toList = [("img", "mina"), ("id", "anna")] := by
    rw [Script.attributes_of_match h₁]
    change _ :: Script.attributes (' ' :: "id=anna".toList) = _
    rw [Script.attributes_skip h₂, if_neg (by decide), Script.attributes_of_match h₃,
      Script.attributes_nil]
    rfl
  have ht : Script.Tag.ofLine "char" "img=mina id=anna" =
      ⟨"char", .ofList [("img", "mina"), ("id", "anna")]⟩ := by
    rw [Script.Tag.ofLine, if_pos (by decide), ha]
    rfl
  have hp : Program.parse "inn" text =
      .ofActions "inn" [.showCharacter "mina" "anna" .center, .message "Good evening."] [1, 2] := by
    rw [Program.parse, hl, Script.assemble, ht]
    rfl
  have hw : Program.warnings text = [] := by
    rw [Program.warnings, hl, Script.warnings, Script.warningsFrom, ht]
    rfl
  have hc : checkText (some catalog) "inn" text = [] := by
    rw [checkText, hp, hw]
    decide +kernel
  have hi : Illustrated catalog "inn" text := by
    intro line kind image
    rw [hc]
    exact List.not_mem_nil
  have hr : ∀ q, .reload q ∈ [] ++ [Instruction.start] → ∃ id' text', q = .parse id' text' ∧
      Illustrated catalog id' text' := by simp
  have hn : (Narrator.start (.parse "inn" text) .empty true).tick none =
      (⟨⟨.parse "inn" text, some 1⟩, .empty, .awaitingAdvance true, true⟩,
        .ok ⟨[.spawnActor "anna" "mina" .center, .showText "Good evening."],
          .awaitingAdvance true, none⟩) := by
    rw [hp]
    cbv
  have hs : s.orders .start = [(s.director, .spawn "anna" "mina" .center)] := by
    have hh : s.heard .start = [.spawnActor "anna" "mina" .center, .showText "Good evening."] := by
      rw [heard_start]
      change (match ((Narrator.start (.parse "inn" text) .empty true).tick none).2 with
        | .ok t => t.cues
        | .error _ => []) = _
      rw [hn]
    rw [orders, hh]
    rfl
  refine ⟨⟨hi, hr⟩, s.director, hs, ?_⟩
  have hx := (pictures_checked "inn" text .empty (Console.start 45) catalog {} [] .start).2.2.2 hi hr
  apply hx (s.director, .spawn "anna" "mina" .center)
  change _ ∈ s.orders .start
  rw [hs]
  exact List.mem_singleton_self _

end Stage

end Dialogue
