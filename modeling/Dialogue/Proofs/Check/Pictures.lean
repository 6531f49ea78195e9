import Dialogue.Proofs.Check.Exactness
namespace Dialogue

/-- A picture that a script names, with the kind of the action that does so and its line. -/
structure Reference where
  kind : String
  image : String
  line : Option Nat
deriving DecidableEq, Repr

def Cue.image? : Cue → Option (String × String)
  | .spawnActor _ image _ => some ("char", image)
  | .changeExpression _ image => some ("expr", image)
  | _ => none

def Reference.picture (r : Reference) : String × String :=
  (r.kind, r.image)

namespace Program

variable {p : Program} {i : Nat}

def imageAt? (p : Program) (i : Nat) : Option (String × String) :=
  (p.action? i).bind imageOf?

def reference? (p : Program) (i : Nat) : Option Reference :=
  (p.imageAt? i).map fun (kind, image) => ⟨kind, image, p.line? i⟩

def references (p : Program) : List Reference :=
  p.images.map fun (i, kind, image) => ⟨kind, image, p.line? i⟩

theorem imageAt?_of_action {a : Action} (h : p.action? i = some a) :
    p.imageAt? i = imageOf? a := by
  rw [imageAt?, h, Option.bind_some]

theorem mem_images {kind image : String} (h : p.imageAt? i = some (kind, image)) :
    (i, kind, image) ∈ p.images := by
  obtain ⟨a, ha, hk⟩ := Option.bind_eq_some_iff.mp h
  refine List.mem_filterMap.mpr ⟨(a, i), List.mem_zipIdx_iff_getElem?.mpr ha, ?_⟩
  exact congrArg (Option.map (i, ·)) hk

theorem mem_references {r : Reference} (h : p.reference? i = some r) : r ∈ p.references := by
  obtain ⟨⟨kind, image⟩, hi, rfl⟩ := Option.map_eq_some_iff.mp h
  exact List.mem_map_of_mem (mem_images hi)

theorem pictures_references (p : Program) (places : List Nat) :
    (places.filterMap p.reference?).map Reference.picture = places.filterMap p.imageAt? := by
  rw [List.map_filterMap]
  congr 1
  funext i
  rw [reference?]
  cases p.imageAt? i <;> rfl

end Program

theorem Action.images_cues (a : Action) (s : Store) :
    (a.cues s).filterMap Cue.image? = (Program.imageOf? a).toList := by
  cases a with
  | choices options =>
    rw [cues]
    split <;> rfl
  | gesture actor gesture => cases gesture <;> rfl
  | _ => rfl

namespace Course

theorem cues_step {x : Course} {a : Action} (hp : x.cursor.peek? = some a) :
    (match x.step true with
      | .inl s => s.cues
      | .inr y => y.cues) = x.cues ++ a.cues x.store := by
  rw [step]
  simp only [hp]
  cases a.next with
  | proceed | wait | leave => rfl
  | jump target =>
    dsimp only
    cases true && x.taken.contains x.cursor.next with
    | true => rfl
    | false => cases x.cursor.reached.jump? target <;> rfl

theorem images_run {k : Nat} {x : Course} {s : Stretch} (h : x.run true k = some s) :
    s.cues.filterMap Cue.image? =
      x.cues.filterMap Cue.image? ++ (x.places k).filterMap x.cursor.program.imageAt? := by
  induction k generalizing x with
  | zero => cases h
  | succ k ih =>
    rw [places]
    cases hp : x.cursor.peek? with
    | none =>
      have hs : x.step true = .inl ⟨x.cues, x.cursor, x.store, .ends⟩ := by
        simp only [step, hp]
      rw [run_stop hs] at h
      cases h
      exact (List.append_nil _).symm
    | some a =>
      have hc := cues_step hp
      have ha (rest : List Nat) : (x.cursor.next :: rest).filterMap x.cursor.program.imageAt? =
          (a.cues x.store).filterMap Cue.image? ++ rest.filterMap x.cursor.program.imageAt? := by
        rw [List.filterMap_cons, Program.imageAt?_of_action hp, Action.images_cues]
        cases Program.imageOf? a <;> rfl
      cases hs : x.step true with
      | inl t =>
        rw [run_stop hs] at h
        cases h
        rw [hs] at hc
        dsimp only at hc ⊢
        rw [hc, ha, List.filterMap_append, List.filterMap_nil, List.append_nil]
      | inr y =>
        rw [run_step hs] at h
        rw [hs] at hc
        dsimp only at hc ⊢
        rw [ih h, hc, (leads_of_step hs).1, ha, List.filterMap_append, List.append_assoc]

end Course

namespace Narrator

variable {n : Narrator} {input : Option Input} {due : List Cue} {t : Tick}

theorem cues_of_settle {s : Stretch} (h : (n.settle due s).2 = .ok t) :
    t.cues = due ++ s.cues := by
  rw [settle] at h
  cases hs : s.stop with
  | fails => simp [hs] at h
  | waits | ends | leaves =>
    simp only [hs, Except.ok.injEq] at h
    rw [← h]

/-- A tick brings the pictures of the actions that it takes on the stage. -/
theorem images_tick (h : (n.tick input).2 = .ok t) :
    t.cues.filterMap Cue.image? = (n.places input).filterMap n.cursor.program.imageAt? := by
  have ho := n.opens input
  rw [places]
  cases ha : n.opening input with
  | inl answer =>
    rw [ha] at ho
    rw [tick_of_answer ha] at h
    cases ho with
    | ended | badIndex | astray | lost | notChoosing => cases h
    | stopped | waits | repeated | ignored | clicked | shown =>
      cases h
      rfl
  | inr p =>
    obtain ⟨m, due⟩ := p
    rw [ha] at ho
    rw [tick_of_play ha] at h
    have hd : due.filterMap Cue.image? = [] := by
      cases ho <;> rfl
    have hi := Course.images_run (m.run_guarded_stretch 0)
    rw [cues_of_settle h, List.filterMap_append, hd, hi]
    exact congrArg (List.filterMap ·.imageAt? _) ho.program_eq

end Narrator

/-- No picture is reported as missing in the text of a script. -/
def Illustrated (catalog : Catalog) (id text : String) : Prop :=
  ∀ line kind image,
    (Finding.missingImage kind image).diagnostic id line ∉ checkText (some catalog) id text

theorem Illustrated.exists_image {catalog : Catalog} {id text : String}
    (h : Illustrated catalog id text) {i : Nat} {kind image : String}
    (hi : (Program.parse id text).imageAt? i = some (kind, image)) : catalog image = true := by
  by_contra hc
  have hm : (i, Finding.missingImage kind image) ∈
      (Program.parse id text).missingImages catalog := by
    refine List.mem_filterMap.mpr ⟨(i, kind, image), Program.mem_images hi, ?_⟩
    exact if_neg hc
  apply h ((Program.parse id text).line? i) kind image
  exact List.mem_append_right _ (List.mem_map_of_mem hm)

end Dialogue
