import Calculator.Proofs.Evaluation.Typed
import Calculator.Proofs.Session.Refinement
import Calculator.Proofs.Session.Touches
import Calculator.Screen
/- The calculator in use. Its sessions are those that frames of the keyboard and clicks
   on the keys of the pad lead to (`Reached`); the screen leads to no others, whatever
   its toolkit reports (`frameEach_reached`). What the keys write can all be typed, so the
   history of such a session has typed texts only, the present entry and the one that
   was evaluated last (`History.Typed`). What a session in use can show follows from
   that (`sessions_in_use`). -/
namespace Calculator

/-! ## Keys -/

/-- A key that writes nothing but what can be typed. -/
def Key.WritesTyped : Key → Prop
  | .insert text => Typed text
  | _ => True

/-- The labels of the pad are typeable, but for those of the three keys that do not
    write. -/
theorem labels_typed {label : String} (h : label ∈ Keypad.labels) :
    label = "C" ∨ label = "DEL" ∨ label = "=" ∨ Typed label := by
  have hall : Keypad.labels.all (fun l => l = "C" || l = "DEL" || l = "=" ||
      l.toList.all fun c => typeable.contains c) = true := by decide
  simpa [Typed, or_assoc] using List.all_eq_true.mp hall label h

theorem writesTyped_ofLabel {label : String} (h : label ∈ Keypad.labels) :
    (Key.ofLabel label).WritesTyped := by
  unfold Key.ofLabel
  split_ifs with hclear hdelete hequals
  · trivial
  · trivial
  · trivial
  · simpa [hclear, hdelete, hequals, Key.WritesTyped] using labels_typed h

theorem writesTyped_key? {cap : Keycap} {key : Key} (h : cap.key? = some key) :
    key.WritesTyped := by
  unfold Keycap.key? at h
  split at h <;> cases h <;> trivial

theorem writesTyped_keys (e : Event) : ∀ key ∈ e.keys, key.WritesTyped := by
  intro key hkey
  cases e with
  | text t =>
    obtain ⟨c, hc, rfl⟩ := List.mem_map.mp hkey
    have hc : c ∈ typeable := by simpa using (List.mem_filter.mp hc).2
    simpa [Key.WritesTyped, Typed] using hc
  | stroke k =>
    obtain ⟨cap, pressed, repeated, shift⟩ := k
    cases pressed with
    | false => simp [Event.keys] at hkey
    | true => exact writesTyped_key? (by simpa [Event.keys] using hkey)
  | _ => simp [Event.keys] at hkey

/-! ## Histories -/

namespace History

/-- Nothing was entered or evaluated that cannot be typed. -/
structure Typed (h : History) : Prop where
  entry : Calculator.Typed (String.ofList h.entry)
  evaluated : ∀ cs, h.evaluated = some cs → Calculator.Typed (String.ofList cs)

namespace Typed

theorem empty : History.empty.Typed where
  entry c hc := by simp [History.empty] at hc
  evaluated cs hcs := by cases hcs

theorem press {h : History} (ht : h.Typed) {key : Key} (hk : key.WritesTyped) :
    (h.press key).Typed := by
  cases key with
  | clear => exact empty
  | delete =>
    refine ⟨fun c hc => ht.entry c ?_, ht.evaluated⟩
    rw [String.toList_ofList] at hc ⊢
    exact List.dropLast_subset _ hc
  | equals =>
    show (if h.entry.all Text.isBlank then h else { h with evaluated := some h.entry }).Typed
    split
    · exact ht
    · refine ⟨ht.entry, fun cs hcs => ?_⟩
      cases hcs
      exact ht.entry
  | insert text =>
    refine ⟨fun c hc => ?_, ht.evaluated⟩
    rw [String.toList_ofList] at hc
    rcases List.mem_append.mp hc with hc | hc
    · exact ht.entry c (by simpa using hc)
    · exact hk c hc

theorem shown_pressAll {h : History} (ht : h.Typed) {keys : List Key}
    (hk : ∀ key ∈ keys, key.WritesTyped) :
    ∃ g : History, g.Typed ∧ h.shown.pressAll keys = g.shown := by
  induction keys generalizing h with
  | nil => exact ⟨h, ht, rfl⟩
  | cons key keys ih =>
    obtain ⟨hkey, hk⟩ := List.forall_mem_cons.mp hk
    obtain ⟨g, hg, hshown⟩ := ih (ht.press hkey) hk
    refine ⟨g, hg, ?_⟩
    have hstep : (h.press key).shown = h.shown.press key := h.shown_take (.press key)
    rw [← hshown, hstep]
    rfl

/-- The error line is empty, or it is the message of an error that what is typed can
    have. -/
theorem shown_error {h : History} (ht : h.Typed) :
    h.shown.error = "" ∨ ∃ k : Error, k.OfTyped ∧ h.shown.error = k.message := by
  unfold shown
  cases he : h.evaluated with
  | none => exact .inl rfl
  | some cs =>
    show errorOf _ = "" ∨ ∃ k : Error, k.OfTyped ∧ errorOf _ = k.message
    cases hr : (Evaluation.of (String.ofList cs)).result with
    | ok x => exact .inl rfl
    | error k => exact .inr ⟨k, (ht.evaluated cs he).evaluate_error hr, rfl⟩

end Typed
end History

/-! ## Sessions -/

namespace Session

/-- A session that frames of the keyboard and clicks on the pad lead to. -/
inductive Reached : Session → Prop
  | start : Reached empty
  | type {s : Session} (events : List Event) : Reached s → Reached (s.type events)
  | click {s : Session} {label : String} :
      label ∈ Keypad.labels → Reached s → Reached (s.press (.ofLabel label))

theorem Reached.history {s : Session} (h : Reached s) :
    ∃ g : History, g.Typed ∧ s = g.shown := by
  induction h with
  | start => exact ⟨.empty, .empty, rfl⟩
  | type events _ ih =>
    obtain ⟨g, hg, rfl⟩ := ih
    apply hg.shown_pressAll
    intro key hkey
    obtain ⟨e, -, hkey⟩ := List.mem_flatMap.mp hkey
    exact writesTyped_keys e key hkey
  | click hl _ ih =>
    obtain ⟨g, hg, rfl⟩ := ih
    exact ⟨_, hg.press (writesTyped_ofLabel hl), (g.shown_take (.press _)).symm⟩

/-- Keys that write one character each write them at the end of the entry, and touch
    nothing else. -/
theorem pressAll_inserts (s : Session) (cs : List Char) :
    s.pressAll (cs.map fun c => .insert (String.singleton c)) =
      { s with entry := s.entry ++ String.ofList cs } := by
  induction cs generalizing s with
  | nil => simp [pressAll]
  | cons c cs ih =>
    have hcons : String.ofList (c :: cs) = String.singleton c ++ String.ofList cs := by
      rw [← List.singleton_append, String.ofList_append, String.singleton_eq_ofList]
    show (s.press _).pressAll (cs.map _) = _
    rw [ih, hcons, ← String.append_assoc]
    rfl

/-- Typed texts are written at the end of the entry, less what cannot be typed. -/
theorem type_texts (s : Session) (texts : List String) :
    s.type (texts.map .text) =
      { s with entry := s.entry ++
          String.ofList ((texts.flatMap String.toList).filter fun c => typeable.contains c) } := by
  rw [← pressAll_inserts, type, List.filter_flatMap, List.map_flatMap, List.flatMap_map]
  rfl

theorem typeEach_reached {s : Session} (h : Reached s) (frames : List (List Event)) :
    ∀ t ∈ s.typeEach frames, Reached t := by
  induction frames generalizing s with
  | nil => simp [typeEach]
  | cons frame frames ih =>
    have hframe : Reached (s.type frame) := .type frame h
    simpa [typeEach] using ⟨hframe, ih hframe⟩

theorem pressAll_reached {s : Session} (h : Reached s) {labels : List String}
    (hl : ∀ label ∈ labels, label ∈ Keypad.labels) :
    Reached (s.pressAll (labels.map .ofLabel)) := by
  induction labels generalizing s with
  | nil => exact h
  | cons label labels ih =>
    obtain ⟨hfirst, hrest⟩ := List.forall_mem_cons.mp hl
    exact ih (.click hfirst h) hrest

/-- A frame of the screen is a frame of the keyboard and clicks on keys of the pad,
    whatever is reported as clicked. -/
theorem frame_reached {s : Session} (h : Reached s) (events : List Event)
    (clicked : Target → Bool) : Reached (s.frame events clicked) :=
  pressAll_reached (.type events h) fun _ hl => List.mem_of_mem_filter hl

end Session

theorem Toolkit.frameEach_reached {σ : Type} (T : Toolkit σ) {s : Session} (h : s.Reached)
    (c : σ) (frames : List (List Input)) :
    ∀ t ∈ T.frameEach (c, s) frames, t.session.Reached := by
  induction frames generalizing c s with
  | nil => simp [frameEach]
  | cons inputs frames ih =>
    have hframe := Session.frame_reached h (Input.events inputs) (T.clicked c inputs)
    simpa [frameEach] using ⟨hframe, ih hframe _⟩

namespace Session

/-- What can be relied on in a session that is used by the keyboard and the pad only. -/
structure InUse (s : Session) : Prop where
  typed : Typed s.entry
  blank : Text.allBlank s.entry = true ↔ s.entry = ""
  /-- The zero that nobody typed stands for the empty entry. -/
  display : s.display = "0" ↔ s.entry = "" ∨ s.entry = "0"
  /-- Of the entry only a run of digits and points can fail to be read. -/
  unread : ∀ k, Token.ofText s.entry = .error k →
    ∃ r, k = .invalidNumber (String.ofList r) ∧ (Lexeme.run r).Formed
  /-- Nor was it anything else when an entry was last evaluated. -/
  unexpected : ∀ c, s.error ≠ (Error.unexpectedCharacter c).message
  invalid : ∀ r, s.error = (Error.invalidNumber r).message → (Lexeme.run r.toList).Formed

theorem Reached.inUse {s : Session} (h : Reached s) : InUse s := by
  obtain ⟨g, hg, rfl⟩ := h.history
  have hentry : Typed g.shown.entry := by
    rw [g.shown_entry]
    exact hg.entry
  -- Messages tell errors apart, so the one that is shown is of no error but those that
  -- what is typed can have.
  have herror (k : Error) (hk : g.shown.error = k.message) : k.OfTyped := by
    rcases hg.shown_error with hnone | ⟨k', hk', hmessage⟩
    · exact absurd (hk.symm.trans hnone) k.message_ne_empty
    · obtain rfl := Error.message_injective (hk.symm.trans hmessage)
      exact hk'
  refine ⟨hentry, hentry.allBlank_iff, ?_, fun k => hentry.ofText_error, ?_, ?_⟩
  · rw [Session.display]
    by_cases hempty : g.shown.entry = ""
    · simp [hempty, Text.allBlank]
    · have hblank : ¬ Text.allBlank g.shown.entry = true := by rwa [hentry.allBlank_iff]
      simp [hempty, hblank]
  · intro c hc
    exact herror (.unexpectedCharacter c) hc
  · intro r hr
    exact herror (.invalidNumber r) hr

end Session

/-- Both front ends lead only to sessions that are reached by frames of the keyboard and
    clicks on the pad, the screen under any toolkit. In each of these nothing stands in the
    entry that cannot be typed, and it is blank only if it is empty, so that a zero that
    nobody typed is shown for the empty entry only. No character outside the alphabet of
    expressions is ever met, and what cannot be read is a run of digits and points. Typed
    texts are written at the end of the entry, less what cannot be typed, and they neither
    clear nor delete nor evaluate, whatever they say. -/
theorem sessions_in_use :
    (∀ frames, ∀ s ∈ Session.empty.typeEach frames, s.Reached) ∧
    (∀ (σ : Type) (T : Toolkit σ) (frames : List (List Input)),
      ∀ s ∈ T.screens frames, s.session.Reached) ∧
    (∀ s : Session, s.Reached → s.InUse) ∧
    (∀ (s : Session) (texts : List String), s.type (texts.map .text) =
      { s with entry := s.entry ++
          String.ofList ((texts.flatMap String.toList).filter fun c => typeable.contains c) }) ∧
    ∀ (text label : String), label ∈ (Event.text text).touches →
      Key.ofLabel label = .insert label := by
  refine ⟨Session.typeEach_reached .start, fun _ T => T.frameEach_reached .start T.start,
    fun s h => h.inUse, Session.type_texts, fun text label hlabel => ?_⟩
  obtain ⟨c, hc, rfl⟩ := List.mem_map.mp hlabel
  exact ofLabel_typeable (by simpa using (List.mem_filter.mp hc).2)

/-- The entry is shorter by now than the run for which it was refused. -/
theorem sessions_in_use_deleted :
    let s := (Session.empty.type [.text "1.2=é.3", .stroke ⟨.enter, true, false, false⟩]).press
      (.ofLabel "DEL")
    s.Reached ∧ s.entry = "1.2." ∧ s.error = (Error.invalidNumber "1.2.3").message ∧
      (Lexeme.run "1.2.3".toList).Formed ∧ s.display ≠ "0" := by
  intro s
  have hs : s.Reached := .click (by decide) (.type _ .start)
  have hentry : s.entry = "1.2." := by decide +kernel
  have herror : s.error = (Error.invalidNumber "1.2.3").message := by decide +kernel
  have huse : s.InUse := sessions_in_use.2.2.1 s hs
  refine ⟨hs, hentry, herror, huse.invalid _ herror, ?_⟩
  rw [Ne, huse.display, hentry]
  decide

end Calculator
