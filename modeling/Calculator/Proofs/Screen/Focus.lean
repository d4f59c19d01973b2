import Calculator.Proofs.Screen.Touches
/- The toolkit whose keyboard moves a focus is one that can be relied on
   (`Focus.toolkit_faithful`). Nothing has the focus at first, and only Tab gives it to a
   target that nothing has given it to (`outcome_of_noTab`); what has it is pushed by
   Space and Enter only (`pushes_of_pushed`). -/
namespace Calculator.Focus
open Input

/-- Without Tab no target is sent for. -/
theorem request_of_noTab {m : Motion} (hn : m ≠ .next) (hp : m ≠ .previous) {ks : List Stroke}
    (h : ∀ k ∈ ks, k.cap ≠ .tab) :
    ∃ m', ks.foldl Motion.request (none, m) = (none, m') ∧ m' ≠ .next ∧ m' ≠ .previous := by
  induction ks generalizing m with
  | nil => exact ⟨m, rfl, hn, hp⟩
  | cons k ks ih =>
    obtain ⟨hk, hks⟩ := List.forall_mem_cons.mp h
    -- An arrow replaces the motion, Escape takes it back, the other keys leave it.
    have hstep : ∃ m', Motion.request (none, m) k = (none, m') ∧ m' ≠ .next ∧ m' ≠ .previous := by
      unfold Motion.request
      split
      · exact absurd ‹k.cap = .tab› hk
      · exact ⟨_, rfl, by simp, by simp⟩
      · exact ⟨_, rfl, by simp, by simp⟩
      · exact ⟨m, rfl, hn, hp⟩
    obtain ⟨m', hm, hn', hp'⟩ := hstep
    rw [List.foldl_cons, hm]
    exact ih hn' hp' hks

/-- Where nothing has the focus and Tab does not go down, nothing is pushed and
    nothing gets the focus. -/
theorem outcome_of_noTab {inputs : List Input} (h : ¬ GoesDown .tab (events inputs)) :
    outcome none inputs = ⟨none, none⟩ := by
  have hstrokes : ∀ k ∈ (events inputs).filterMap Event.down?, k.cap ≠ .tab :=
    fun k hk htab => h ⟨k, hk, htab⟩
  obtain ⟨m, hm, hn, hp⟩ := request_of_noTab (m := .stay) (by simp) (by simp) hstrokes
  unfold outcome step
  rw [hm]
  cases m with
  | next => exact absurd rfl hn
  | previous => exact absurd rfl hp
  | stay => simp [during, following]
  | toward d => simp [during, following]

theorem focus_after_of_noTab {frames : List (List Input)}
    (h : ∀ inputs ∈ frames, ¬ GoesDown .tab (events inputs)) : (toolkit.after frames).focus = none := by
  induction frames using List.reverseRecOn with
  | nil => rfl
  | append_singleton before inputs ih =>
    obtain ⟨hbefore, hlast⟩ := List.forall_mem_append.mp h
    have hnext := outcome_of_noTab (hlast inputs List.mem_cons_self)
    rw [toolkit.after_concat]
    show (outcome (toolkit.after before).focus inputs).focus = none
    rw [ih hbefore, hnext]

theorem pushes_of_pushed {focus : Option Target} {inputs : List Input} {t : Target}
    (h : (outcome focus inputs).pushed = some t) : Pushes (events inputs) := by
  by_contra hpush
  obtain ⟨hspace, henter⟩ := not_or.mp hpush
  have hnone : ((events inputs).filterMap Event.down?).any (fun k => k.cap.pushes) = false := by
    rw [List.any_eq_false]
    intro k hk hpushes
    unfold Keycap.pushes at hpushes
    split at hpushes
    · exact henter ⟨k, hk, ‹_›⟩
    · exact hspace ⟨k, hk, ‹_›⟩
    · cases hpushes
  unfold outcome step at h
  simp [hnone] at h

theorem toolkit_faithful : toolkit.Faithful where
  shut := rfl
  turned before inputs := by
    rw [toolkit.after_concat]
    rfl
  clicked before inputs t _ ht := by
    show (decide _ || (clicks inputs).contains t) = true
    rw [ht, List.contains_iff_mem.mpr List.mem_cons_self, Bool.or_true]
  pushed before inputs t ht hclick := by
    have hpushed : (outcome (toolkit.after before).focus inputs).pushed = some t := by
      rcases (Bool.or_eq_true_iff.mp ht : _ ∨ _) with hpushed | hclicked
      · exact of_decide_eq_true hpushed
      · exact absurd (List.contains_iff_mem.mp hclicked) hclick
    refine ⟨?_, pushes_of_pushed hpushed⟩
    by_contra htab
    have hno : ∀ earlier ∈ before ++ [inputs], ¬ GoesDown .tab (events earlier) :=
      fun earlier hearlier hdown => htab ⟨earlier, hearlier, hdown⟩
    obtain ⟨hbefore, hlast⟩ := List.forall_mem_append.mp hno
    rw [focus_after_of_noTab hbefore, outcome_of_noTab (hlast inputs List.mem_cons_self)] at hpushed
    cases hpushed

end Calculator.Focus
