import Calculator.Proofs.Screen.Focus
/- The front ends. The keyboard alone and the whole screen drive the same machine as a
   session in which one label after the other is pressed, whatever toolkit shows the
   screen (`driven_by_touches`). It does not matter to the keyboard which frames the
   events come in and how texts are cut, nor to the screen as long as Tab does not go
   down or Space and Enter do not (`final_of_pieces`). With Tab and Space it does, and
   the keyboard pushes targets that nobody clicks (`pushed_by_keyboard`). -/
namespace Calculator

/-- A key of the keyboard goes down. -/
def Input.down (cap : Keycap) : Input := .event (.stroke ⟨cap, true, false, false⟩)

theorem Session.foldl_type_of_pieces {frames frames' : List (List Event)}
    (h : frames.flatten.flatMap Event.pieces = frames'.flatten.flatMap Event.pieces) :
    frames.foldl type empty = frames'.foldl type empty := by
  have hrun (frames : List (List Event)) :
      frames.foldl type empty = touched (frames.flatten.flatMap Event.touches) := foldl_type [] frames
  rw [hrun, hrun, ← touches_pieces frames.flatten, h, touches_pieces]

/-! ## Frames of events -/

namespace Input

theorem events_map (es : List Event) : events (es.map .event) = es := by
  rw [events, List.filterMap_map]
  exact List.filterMap_some

theorem clicks_map (es : List Event) : clicks (es.map .event) = [] := by
  rw [clicks, List.filterMap_map]
  exact List.filterMap_eq_nil_iff.mpr fun _ _ => rfl

end Input

namespace Screen
open Input

theorem touches_events (frames : List (List Event)) :
    touches (frames.map (List.map .event)) (frames.map fun _ => []) =
      frames.flatten.flatMap Event.touches := by
  induction frames with
  | nil => rfl
  | cons es frames ih =>
    rw [List.map_cons, List.map_cons, touches, ih, events_map, List.flatten_cons,
      List.flatMap_append, List.flatMap_nil, List.append_nil]

theorem Plain.of_events {frames : List (List Event)}
    (h : GoesDown .tab frames.flatten → ¬ Pushes frames.flatten) :
    Plain (frames.map (List.map .event)) where
  single := List.forall_mem_map.mpr fun es _ => by rw [clicks_map]; exact Nat.zero_le 1
  shown := List.forall_mem_map.mpr fun es _ => by rw [clicks_map]; exact List.forall_mem_nil _
  same := List.forall_mem_map.mpr fun es hes htab hpush => by
    rw [events_map] at htab hpush
    exact h (htab.flatten hes) (hpush.flatten hes)
  later := by
    rw [List.pairwise_map]
    refine List.pairwise_of_forall_mem_list fun es hes fs hfs htab hpush => ?_
    rw [events_map] at htab hpush
    exact h (htab.flatten hes) (hpush.flatten hfs)

end Screen

namespace Toolkit.Faithful
open Input Screen

variable {σ : Type} {T : Toolkit σ}

/-- Events that push nothing are typed, however they are dealt out to frames. -/
theorem shows_events (hT : T.Faithful) {frames : List (List Event)}
    (h : GoesDown .tab frames.flatten → ¬ Pushes frames.flatten) :
    (T.screen ((frames.map (List.map .event)).foldl T.step (T.start, .empty))).Shows
      (frames.flatten.flatMap Event.touches) 0 := by
  have hclicks : (frames.map (List.map .event)).map clicks = frames.map fun _ => [] := by
    rw [List.map_map]
    exact List.map_congr_left fun es _ => clicks_map es
  have hnone : (frames.map fun _ => ([] : List Target)).flatten = [] := by simp
  have hrun := hT.shows (frames.map (List.map .event))
  rwa [hT.reportedEach (.of_events h), hclicks, touches_events, hnone] at hrun

theorem final_of_pieces (hT : T.Faithful) {frames frames' : List (List Event)}
    (h : frames.flatten.flatMap Event.pieces = frames'.flatten.flatMap Event.pieces)
    (hp : GoesDown .tab frames.flatten → ¬ Pushes frames.flatten) :
    (T.screens (frames.map (List.map .event))).getLastD .start =
      (T.screens (frames'.map (List.map .event))).getLastD .start := by
  have hdown (cap : Keycap) : GoesDown cap frames.flatten ↔ GoesDown cap frames'.flatten := by
    unfold GoesDown
    rw [← strokes_pieces, h, strokes_pieces]
  have hp' : GoesDown .tab frames'.flatten → ¬ Pushes frames'.flatten := by
    unfold Pushes at hp ⊢
    rwa [← hdown, ← hdown, ← hdown]
  have hstart : Screen.start = T.screen (T.start, .empty) := by
    rw [screen, hT.shut]
    rfl
  have hlast := getLastD_each T.step T.screen T.frameEach (fun _ => rfl) (fun _ _ _ => rfl)
    (T.start, .empty)
  have hshows := hT.shows_events hp
  rw [← touches_pieces, h, touches_pieces] at hshows
  rw [screens, screens, hstart, hlast, hlast]
  exact hshows.unique (hT.shows_events hp')

end Toolkit.Faithful

namespace Screen
open Input

/-- After each frame of the keyboard the session is that in which the touches of the
    events are pressed one by one. After each frame of the screen it is that of the
    touches of the events and of the targets that the toolkit reports as clicked, and the
    panel is open after an odd number of reports of the header; what comes of Enter in a
    frame in which something is pushed is left open. As long as Space and Enter stay up
    once Tab has gone down, the targets are those that the mouse clicks. The events of
    the keyboard can come in other frames, and texts can be cut, and those of the screen
    too if Tab is not among them or neither Space nor Enter is. -/
theorem driven_by_touches {σ : Type} (T : Toolkit σ) (hT : T.Faithful) :
    (∀ (before : List (List Event)) (frame : List Event) (rest : List (List Event)),
      (Session.empty.typeEach (before ++ frame :: rest))[before.length]? =
        some (.touched ((before ++ [frame]).flatten.flatMap Event.touches))) ∧
    (∀ (before : List (List Input)) (inputs : List Input) (rest : List (List Input)),
      T.EnterApart (before ++ [inputs]) →
      ∃ s, (T.screens (before ++ inputs :: rest))[before.length]? = some s ∧
        s.Shows (touches (before ++ [inputs]) (T.reportedEach T.start (before ++ [inputs])))
          ((T.reportedEach T.start (before ++ [inputs])).flatten.count .header)) ∧
    (∀ (before : List (List Input)) (inputs : List Input) (rest : List (List Input)),
      Plain (before ++ [inputs]) →
      ∃ s, (T.screens (before ++ inputs :: rest))[before.length]? = some s ∧
        s.Shows (touches (before ++ [inputs]) ((before ++ [inputs]).map clicks))
          (((before ++ [inputs]).map clicks).flatten.count .header)) ∧
    ∀ frames frames' : List (List Event),
      frames.flatten.flatMap Event.pieces = frames'.flatten.flatMap Event.pieces →
      (Session.empty.typeEach frames).getLastD .empty =
        (Session.empty.typeEach frames').getLastD .empty ∧
      ((GoesDown .tab frames.flatten → ¬ Pushes frames.flatten) →
        (T.screens (frames.map (List.map .event))).getLastD start =
          (T.screens (frames'.map (List.map .event))).getLastD start) := by
  refine ⟨Session.typeEach_getElem?, fun before inputs rest _ => hT.screens_getElem? before inputs rest,
    fun before inputs rest hplain => ?_, fun frames frames' h => ⟨?_, hT.final_of_pieces h⟩⟩
  · rw [← hT.reportedEach hplain]
    exact hT.screens_getElem? before inputs rest
  · have hlast := getLastD_each Session.type id Session.typeEach (fun _ => rfl) (fun _ _ _ => rfl) .empty
    exact (hlast frames).trans ((Session.foldl_type_of_pieces h).trans (hlast frames').symm)

/-- A screen under the toolkit with a focus. An answer comes by the keyboard, and after it
    Space pushes the keys that Tab leads to; another comes with clicks next to it, and Tab
    after it; and one entry is typed in two ways. -/
theorem driven_by_touches_focus :
    let T := Focus.toolkit
    let pushed : List (List Input) := [[.event (.text "6*7"), .down .enter], [.click .header],
      [.down .tab], [.down .space], [.down .tab], [.down .space]]
    let plain : List (List Input) := [[.click .header, .event (.text "6 * 7")],
      [.down .enter, .click (.key "DEL")], [.down .tab]]
    let typed : List (List Event) := [[.text "1+"], [.text "2é", .copy]]
    let retyped : List (List Event) := [[.text "1+2", .text "é", .copy]]
    T.Faithful ∧
    T.EnterApart pushed ∧
    (∃ s, (T.screens pushed)[5]? = some s ∧
      s.session = .touched ["6", "*", "7", "=", "C", "("] ∧ s.panelOpen = true) ∧
    Plain plain ∧
    (∃ s, (T.screens plain)[2]? = some s ∧
      s.session = .touched ["6", "*", "7", "=", "DEL"] ∧ s.panelOpen = true) ∧
    typed.flatten.flatMap Event.pieces = retyped.flatten.flatMap Event.pieces ∧
    (GoesDown .tab typed.flatten → ¬ Pushes typed.flatten) ∧
    (T.screens (typed.map (List.map .event))).getLastD start =
      (T.screens (retyped.map (List.map .event))).getLastD start := by
  intro T pushed plain typed retyped
  have hapart : T.EnterApart pushed := by
    unfold Toolkit.EnterApart
    decide +kernel
  have hplain : Plain plain :=
    ⟨by decide +kernel, by decide +kernel, by decide +kernel, by decide +kernel⟩
  have hpieces : typed.flatten.flatMap Event.pieces = retyped.flatten.flatMap Event.pieces := by
    decide +kernel
  have htab : GoesDown .tab typed.flatten → ¬ Pushes typed.flatten := by decide +kernel
  obtain ⟨-, hpushed, hclicked, hframes⟩ := driven_by_touches T Focus.toolkit_faithful
  obtain ⟨s, hs, hshows⟩ := hpushed (pushed.take 5) pushed[5] [] hapart
  obtain ⟨s', hs', hshows'⟩ := hclicked (plain.take 2) plain[2] [] hplain
  refine ⟨Focus.toolkit_faithful, hapart, ⟨s, hs, hshows.session.trans ?_, hshows.panel.mpr ?_⟩,
    hplain, ⟨s', hs', hshows'.session.trans ?_, hshows'.panel.mpr ?_⟩, hpieces, htab,
    (hframes _ _ hpieces).2 htab⟩
  · exact congrArg Session.touched (by decide +kernel)
  · decide +kernel
  · exact congrArg Session.touched (by decide +kernel)
  · decide +kernel

/-- Tab gives a key the focus, and Space pushes it: a parenthesis is written without a
    text and without a click. And Tab goes on by one target in a frame, however often it
    goes down. -/
theorem pushed_by_keyboard :
    (start.frameEach [[.down .tab], [.down .space], [.down .tab], [.down .space]])[3]?.map session ≠
      some (.touched (touches [[.down .tab], [.down .space], [.down .tab], [.down .space]]
        ([[.down .tab], [.down .space], [.down .tab], [.down .space]].map clicks))) ∧
    ((start.frameEach [[.down .tab], [.down .tab], [.down .space]]).getLastD start).session ≠
      ((start.frameEach [[.down .tab, .down .tab], [.down .space]]).getLastD start).session := by
  decide +kernel

end Screen
end Calculator
