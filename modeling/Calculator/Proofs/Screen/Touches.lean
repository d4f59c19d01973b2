import Calculator.Proofs.Session.Touches
import Calculator.Screen
import Mathlib.Data.List.Induction
import Mathlib.Tactic.ByContra
/- The screen told by touches, under any toolkit. A frame presses the targets that the
   toolkit reports, so a run of frames shows what the touches of its events and of the
   reported targets make of a session (`foldl_step`).

   What is asked of a toolkit is `Toolkit.Faithful`. The panel is shut at first and turns
   with every report of its header, so it is open after an odd number of them
   (`Faithful.panelOpen_after`). A toolkit reports what is clicked, and for another target
   to be reported the keyboard has to push it, which takes Tab first and then Space or
   Enter. As long as Space and Enter stay up once Tab has gone down, the targets that are
   reported are those that are clicked (`Faithful.reportedEach`). -/
namespace Calculator

/-- The touches of a press: the label of a key, and none of the header. -/
def Target.touches : Target → List String
  | .key label => [label]
  | .header => []

/-- Among the strokes of these events there is one with which this key goes down. -/
def GoesDown (cap : Keycap) (es : List Event) : Prop := ∃ k ∈ es.filterMap Event.down?, k.cap = cap

/-- Space or Enter goes down. -/
def Pushes (es : List Event) : Prop := GoesDown .space es ∨ GoesDown .enter es

instance (cap : Keycap) (es : List Event) : Decidable (GoesDown cap es) :=
  inferInstanceAs (Decidable (∃ k ∈ es.filterMap Event.down?, k.cap = cap))

instance (es : List Event) : Decidable (Pushes es) :=
  inferInstanceAs (Decidable (GoesDown .space es ∨ GoesDown .enter es))

theorem GoesDown.flatten {cap : Keycap} {es : List Event} {frames : List (List Event)}
    (hes : es ∈ frames) (h : GoesDown cap es) : GoesDown cap frames.flatten := by
  obtain ⟨k, hk, hcap⟩ := h
  obtain ⟨e, he, hdown⟩ := List.mem_filterMap.mp hk
  exact ⟨k, List.mem_filterMap.mpr ⟨e, List.mem_flatten.mpr ⟨es, hes, he⟩, hdown⟩, hcap⟩

theorem Pushes.flatten {es : List Event} {frames : List (List Event)} (hes : es ∈ frames)
    (h : Pushes es) : Pushes frames.flatten := h.imp (.flatten hes) (.flatten hes)

/-- The touches of frames that press these targets: in each frame those of its
    events, then those of its targets. -/
def Screen.touches : List (List Input) → List (List Target) → List String
  | inputs :: rest, targets :: others =>
    (Input.events inputs).flatMap Event.touches ++ targets.flatMap Target.touches ++
      touches rest others
  | _, _ => []

/-- What a screen shows after these touches and as many turns of the panel. -/
structure Screen.Shows (s : Screen) (as : List String) (turns : Nat) : Prop where
  session : s.session = .touched as
  panel : s.panelOpen = true ↔ turns % 2 = 1
  texts : s.texts = ([(Session.touched as).display, (Session.touched as).output] ++
    Keypad.labels ++ [headerLabel] ++
    if turns % 2 = 1 then panelTexts (.touched as) else []).filter (· ≠ "")

namespace Screen.Shows

variable {s s' : Screen} {as : List String} {turns : Nat}

theorem of_panel (hs : s.session = .touched as) (hp : s.panelOpen = true ↔ turns % 2 = 1) :
    s.Shows as turns where
  session := hs
  panel := hp
  texts := by
    unfold Screen.texts
    rw [hs]
    simp only [hp]

theorem unique (h : s.Shows as turns) (h' : s'.Shows as turns) : s = s' := by
  obtain ⟨session, panelOpen⟩ := s
  obtain ⟨session', panelOpen'⟩ := s'
  obtain rfl : session = session' := h.session.trans h'.session.symm
  obtain rfl : panelOpen = panelOpen' := Bool.eq_iff_iff.mpr (h.panel.trans h'.panel.symm)
  rfl

end Screen.Shows

namespace Toolkit
open Input

/-! ## What is reported -/

variable {σ : Type} (T : Toolkit σ)

/-- The state after these frames. -/
def after (frames : List (List Input)) : σ := frames.foldl T.next T.start

theorem after_concat (before : List (List Input)) (inputs : List Input) :
    T.after (before ++ [inputs]) = T.next (T.after before) inputs := List.foldl_append

/-- The targets that are reported as clicked in a frame, in their order on the screen. -/
def reported (c : σ) (inputs : List Input) : List Target := Target.all.filter (T.clicked c inputs)

/-- The targets that are reported in each frame, from the state `c` on. -/
def reportedEach (c : σ) : List (List Input) → List (List Target)
  | [] => []
  | inputs :: rest => T.reported c inputs :: reportedEach (T.next c inputs) rest

theorem reportedEach_concat (c : σ) (before : List (List Input)) (inputs : List Input) :
    T.reportedEach c (before ++ [inputs]) =
      T.reportedEach c before ++ [T.reported (before.foldl T.next c) inputs] := by
  induction before generalizing c with
  | nil => rfl
  | cons first before ih =>
    rw [List.cons_append, reportedEach, ih]
    rfl

/-- The labels that a frame presses are the touches of what it reports. -/
theorem touches_reported (c : σ) (inputs : List Input) :
    (T.reported c inputs).flatMap Target.touches =
      Keypad.labels.filter fun label => T.clicked c inputs (.key label) := by
  have hkeys (labels : List String) : (labels.map Target.key).flatMap Target.touches = labels := by
    rw [List.flatMap_map]
    exact List.flatMap_singleton' labels
  have hheader : ([Target.header].filter (T.clicked c inputs)).flatMap Target.touches = [] := by
    rw [List.filter_cons]
    split <;> rfl
  rw [reported, Target.all, List.filter_append, List.filter_map, List.flatMap_append, hkeys, hheader,
    List.append_nil]
  rfl

theorem count_reported (c : σ) (inputs : List Input) :
    (T.reported c inputs).count .header = if T.clicked c inputs .header then 1 else 0 := by
  have honce : Target.all.count .header = 1 := by decide
  rw [reported]
  split
  · rw [List.count_filter ‹_›, honce]
  · exact List.count_eq_zero.mpr fun hmem => ‹¬ _› (List.mem_filter.mp hmem).2

theorem frame_touched (as : List String) (c : σ) (inputs : List Input) :
    (Session.touched as).frame (events inputs) (T.clicked c inputs) =
      .touched (as ++ ((events inputs).flatMap Event.touches ++
        (T.reported c inputs).flatMap Target.touches)) := by
  rw [Session.frame, ← touches_reported, Session.type_touched, ← Session.touched_append,
    List.append_assoc]

/-- A run goes through the states of the toolkit, and its session is what the touches
    make of it. -/
theorem foldl_step (c : σ) (as : List String) (frames : List (List Input)) :
    frames.foldl T.step (c, .touched as) =
      (frames.foldl T.next c, .touched (as ++ Screen.touches frames (T.reportedEach c frames))) := by
  induction frames generalizing c as with
  | nil => simp [Screen.touches]
  | cons inputs frames ih =>
    rw [List.foldl_cons, step, frame_touched, ih, List.append_assoc]
    rfl

/-- What a toolkit documents, and all that is asked of it. The panel is shut at first, and
    a frame in which its header is reported turns it. The one target that the mouse clicks
    is reported in its frame. Any other that is reported is pushed by the keyboard: Space
    or Enter goes down in this frame, and Tab in it or earlier, for else nothing has the
    focus. -/
structure Faithful : Prop where
  shut : T.panelOpen T.start = false
  turned (before : List (List Input)) (inputs : List Input) :
    T.panelOpen (T.after (before ++ [inputs])) =
      (T.panelOpen (T.after before) ^^ T.clicked (T.after before) inputs .header)
  clicked (before : List (List Input)) (inputs : List Input) (t : Target) :
    t ∈ Target.all → clicks inputs = [t] → T.clicked (T.after before) inputs t = true
  pushed (before : List (List Input)) (inputs : List Input) (t : Target) :
    T.clicked (T.after before) inputs t = true → t ∉ clicks inputs →
      (∃ earlier ∈ before ++ [inputs], GoesDown .tab (events earlier)) ∧ Pushes (events inputs)

/-- Where Enter goes down it evaluates only: nothing is reported that is not clicked. -/
def EnterApart (frames : List (List Input)) : Prop :=
  ∀ p ∈ frames.zip (T.reportedEach T.start frames), GoesDown .enter (events p.1) →
    ∀ t ∈ p.2, t ∈ clicks p.1

variable {T}

theorem Faithful.panelOpen_after (hT : T.Faithful) (frames : List (List Input)) :
    T.panelOpen (T.after frames) = true ↔
      (T.reportedEach T.start frames).flatten.count .header % 2 = 1 := by
  induction frames using List.reverseRecOn with
  | nil => simp [after, hT.shut, reportedEach]
  | append_singleton before inputs ih =>
    rw [hT.turned, reportedEach_concat, List.flatten_append, List.flatten_singleton,
      List.count_append]
    show _ ↔ (_ + (T.reported (T.after before) inputs).count .header) % 2 = 1
    rw [T.count_reported]
    cases T.clicked (T.after before) inputs .header with
    | false => rw [Bool.xor_false, ih, if_neg Bool.false_ne_true, Nat.add_zero]
    | true =>
      rw [Bool.xor_true, Bool.not_eq_true', ← Bool.not_eq_true, ih, if_pos rfl]
      omega

theorem Faithful.shows (hT : T.Faithful) (frames : List (List Input)) :
    (T.screen (frames.foldl T.step (T.start, .empty))).Shows
      (Screen.touches frames (T.reportedEach T.start frames))
      ((T.reportedEach T.start frames).flatten.count .header) := by
  have hrun : frames.foldl T.step (T.start, .empty) =
      (T.after frames, .touched (Screen.touches frames (T.reportedEach T.start frames))) :=
    T.foldl_step T.start [] frames
  rw [hrun]
  exact .of_panel rfl (hT.panelOpen_after frames)

/-- After each frame the screen shows what was touched up to then. -/
theorem Faithful.screens_getElem? (hT : T.Faithful) (before : List (List Input))
    (inputs : List Input) (rest : List (List Input)) :
    ∃ s, (T.screens (before ++ inputs :: rest))[before.length]? = some s ∧
      s.Shows (Screen.touches (before ++ [inputs]) (T.reportedEach T.start (before ++ [inputs])))
        ((T.reportedEach T.start (before ++ [inputs])).flatten.count .header) := by
  have hshows := hT.shows (before ++ [inputs])
  rw [List.foldl_append] at hshows
  exact ⟨_, getElem?_each T.step _ T.frameEach (fun _ _ _ => rfl) _ before inputs rest, hshows⟩

end Toolkit

/-! ## What is clicked and nothing else -/

namespace Screen
open Input

/-- Each frame clicks at most one target, which is on the screen, and where Tab goes down
    Space and Enter do not, neither in the same frame nor in a later one. -/
structure Plain (frames : List (List Input)) : Prop where
  single : ∀ inputs ∈ frames, (clicks inputs).length ≤ 1
  shown : ∀ inputs ∈ frames, ∀ t ∈ clicks inputs, t ∈ Target.all
  same : ∀ inputs ∈ frames, GoesDown .tab (events inputs) → ¬ Pushes (events inputs)
  later : frames.Pairwise fun earlier inputs =>
    GoesDown .tab (events earlier) → ¬ Pushes (events inputs)

/-- Every target is on the screen once. -/
theorem filter_all : ∀ t ∈ Target.all, Target.all.filter (fun u => [t].contains u) = [t] := by
  decide +kernel

namespace Plain

variable {before : List (List Input)} {inputs : List Input}

theorem init (h : Plain (before ++ [inputs])) : Plain before where
  single := fun i hi => h.single i (List.mem_append_left _ hi)
  shown := fun i hi => h.shown i (List.mem_append_left _ hi)
  same := fun i hi => h.same i (List.mem_append_left _ hi)
  later := (List.pairwise_append.mp h.later).1

theorem not_pushes (h : Plain (before ++ [inputs]))
    (htab : ∃ earlier ∈ before ++ [inputs], GoesDown .tab (events earlier)) :
    ¬ Pushes (events inputs) := by
  obtain ⟨earlier, hearlier, htab⟩ := htab
  rcases List.mem_append.mp hearlier with hbefore | hlast
  · exact (List.pairwise_append.mp h.later).2.2 earlier hbefore inputs List.mem_cons_self htab
  · obtain rfl := List.mem_singleton.mp hlast
    exact h.same earlier hearlier htab

/-- Nothing is clicked, or one target that is on the screen. -/
theorem clicks_cases (h : Plain (before ++ [inputs])) :
    clicks inputs = [] ∨ ∃ t ∈ Target.all, clicks inputs = [t] := by
  have hlast : inputs ∈ before ++ [inputs] := List.mem_append_right _ List.mem_cons_self
  have hsingle := h.single inputs hlast
  have hshown := h.shown inputs hlast
  rcases hc : clicks inputs with _ | ⟨t, _ | ⟨u, rest⟩⟩
  · exact .inl rfl
  · rw [hc] at hshown
    exact .inr ⟨t, hshown t List.mem_cons_self, rfl⟩
  · simp [hc] at hsingle

end Plain
end Screen

namespace Toolkit.Faithful
open Input Screen

variable {σ : Type} {T : Toolkit σ}

theorem reported (hT : T.Faithful) {before : List (List Input)} {inputs : List Input}
    (h : Plain (before ++ [inputs])) : T.reported (T.after before) inputs = clicks inputs := by
  have honly (t : Target) (ht : T.clicked (T.after before) inputs t = true) : t ∈ clicks inputs := by
    by_contra hclick
    obtain ⟨htab, hpush⟩ := hT.pushed before inputs t ht hclick
    exact h.not_pushes htab hpush
  rcases h.clicks_cases with hnone | ⟨t, ht, hone⟩
  · rw [hnone] at honly ⊢
    exact List.filter_eq_nil_iff.mpr fun t _ ht => List.not_mem_nil (honly t ht)
  · have hclicked := hT.clicked before inputs t ht hone
    rw [hone] at honly ⊢
    rw [← filter_all t ht]
    refine List.filter_congr fun u _ => Bool.eq_iff_iff.mpr ?_
    rw [List.contains_iff_mem]
    refine ⟨honly u, fun hu => ?_⟩
    obtain rfl := List.mem_singleton.mp hu
    exact hclicked

/-- Frames report what is clicked, and nothing else. -/
theorem reportedEach (hT : T.Faithful) {frames : List (List Input)} (h : Plain frames) :
    T.reportedEach T.start frames = frames.map clicks := by
  induction frames using List.reverseRecOn with
  | nil => rfl
  | append_singleton before inputs ih =>
    rw [reportedEach_concat, ih h.init, List.map_append, List.map_singleton]
    show before.map clicks ++ [T.reported (T.after before) inputs] = _
    rw [hT.reported h]

end Toolkit.Faithful
end Calculator
