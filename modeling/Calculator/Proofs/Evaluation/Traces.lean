import Calculator.Proofs.Evaluation.Story
/- What the trace and the log of an evaluation tell of its tokens. Tokens are told by
   their text (`Token.listText_injective`), so a text in the panel that is not empty is
   that of the one list of tokens that was read or put in postfix order
   (`trace_tokens_iff`, `trace_rpn_iff`), and an empty order is told by the tokens
   (`trace_iff`). In the log the seventh character of a line tells its kind
   (`Record.line_letter`), so there even the empty list is told from a stage that was
   not reached (`tokens_line_iff`, `rpn_line_iff`). -/
namespace Calculator
open Token

namespace Record

/-- The letter of a line after the level, another one for each kind of record. -/
def letter : Record → Char
  | .tokens _ => 'j'
  | .rpn _ => 'r'
  | .failed _ _ => 'é'
  | .entryFailed _ _ => 'e'

theorem getElem?_append {s t : String} {i : Nat} {c : Char} (h : s.toList[i]? = some c) :
    (s ++ t).toList[i]? = some c := by
  obtain ⟨hi, -⟩ := List.getElem?_eq_some_iff.mp h
  rw [String.toList_append, List.getElem?_append_left hi, h]

theorem line_letter (r : Record) : r.line.toList[6]? = some r.letter := by
  cases r with
  | tokens text =>
    have hj : "DEBUG jetons: ".toList[6]? = some 'j' := by decide
    exact getElem?_append hj
  | rpn text =>
    have hr : "DEBUG rpn: ".toList[6]? = some 'r' := by decide
    exact getElem?_append hr
  | failed s k =>
    have hf : "DEBUG évaluation de ".toList[6]? = some 'é' := by decide
    exact getElem?_append (getElem?_append (getElem?_append hf))
  | entryFailed s k =>
    have he : "DEBUG entrée ".toList[6]? = some 'e' := by decide
    exact getElem?_append (getElem?_append (getElem?_append he))

theorem letter_eq_of_line {r q : Record} (h : r.line = q.line) : r.letter = q.letter := by
  have hletter := line_letter r
  rw [h, line_letter q] at hletter
  exact (Option.some.inj hletter).symm

theorem eq_of_tokens_line {text : String} {r : Record} (h : (tokens text).line = r.line) :
    r = tokens text := by
  cases r with
  | tokens other => exact congrArg tokens ((String.append_right_inj _).mp h).symm
  | _ => cases letter_eq_of_line h

theorem eq_of_rpn_line {text : String} {r : Record} (h : (rpn text).line = r.line) :
    r = rpn text := by
  cases r with
  | rpn other => exact congrArg rpn ((String.append_right_inj _).mp h).symm
  | _ => cases letter_eq_of_line h

end Record

namespace Evaluation

/-- The lines that an evaluation leaves in the log. -/
def lines (e : Evaluation) : List String := e.records.map Record.line

theorem tokens_mem_records {s text : String} :
    .tokens text ∈ (Evaluation.of s).records ↔ ∃ ts, ofText s = .ok ts ∧ text = listText ts := by
  have hstory := story_of s
  generalize Evaluation.of s = e at hstory ⊢
  cases hstory with
  | unread hts => simp [hts]
  | unordered hts hrpn => simp [hts]
  | valued hts hrpn hv => simp [hts]
  | unvalued hts hrpn hk => simp [hts]

theorem rpn_mem_records {s text : String} :
    .rpn text ∈ (Evaluation.of s).records ↔
      ∃ ts rpn, ofText s = .ok ts ∧ Postfix.ofTokens ts = .ok rpn ∧ text = listText rpn := by
  have hstory := story_of s
  generalize Evaluation.of s = e at hstory ⊢
  cases hstory with
  | unread hts => simp [hts]
  | unordered hts hrpn => simp [hts, hrpn]
  | valued hts hrpn hv => simp [hts, hrpn]
  | unvalued hts hrpn hk => simp [hts, hrpn]

theorem line_mem_lines {e : Evaluation} {r : Record} (h : ∀ q : Record, r.line = q.line → q = r) :
    r.line ∈ e.lines ↔ r ∈ e.records := by
  constructor
  · intro hline
    obtain ⟨q, hq, hsame⟩ := List.mem_map.mp hline
    rwa [← h q hsame.symm]
  · exact List.mem_map_of_mem

/-- The line of some tokens is in the log exactly if they were read. -/
theorem tokens_line_iff {s : String} {ts : List Token} :
    (Record.tokens (listText ts)).line ∈ (Evaluation.of s).lines ↔ ofText s = .ok ts := by
  rw [line_mem_lines fun _ => Record.eq_of_tokens_line, tokens_mem_records]
  constructor
  · rintro ⟨us, hus, htext⟩
    rw [hus, listText_injective htext]
  · exact fun hts => ⟨ts, hts, rfl⟩

theorem rpn_line_iff {s : String} {rpn : List Token} :
    (Record.rpn (listText rpn)).line ∈ (Evaluation.of s).lines ↔
      ∃ ts, ofText s = .ok ts ∧ Postfix.ofTokens ts = .ok rpn := by
  rw [line_mem_lines fun _ => Record.eq_of_rpn_line, rpn_mem_records]
  constructor
  · rintro ⟨ts, us, hts, hus, htext⟩
    exact ⟨ts, hts, by rw [hus, listText_injective htext]⟩
  · rintro ⟨ts, hts, hrpn⟩
    exact ⟨ts, rpn, hts, hrpn, rfl⟩

/-- The panel shows some tokens exactly if they were read. -/
theorem trace_tokens_iff {s : String} {ts : List Token} (h : ts ≠ []) :
    (Evaluation.of s).trace.tokens = listText ts ↔ ofText s = .ok ts := by
  have hempty : "" ≠ listText ts := fun htext => h (listText_eq_empty_iff.mp htext.symm)
  have hstory := story_of s
  generalize Evaluation.of s = e at hstory ⊢
  cases hstory with
  | unread hts => simp [hts, Trace.empty, hempty]
  | unordered hts hrpn => simp [hts, listText_injective.eq_iff]
  | valued hts hrpn hv => simp [hts, listText_injective.eq_iff]
  | unvalued hts hrpn hk => simp [hts, listText_injective.eq_iff]

theorem trace_rpn_iff {s : String} {rpn : List Token} (h : rpn ≠ []) :
    (Evaluation.of s).trace.rpn = listText rpn ↔
      ∃ ts, ofText s = .ok ts ∧ Postfix.ofTokens ts = .ok rpn := by
  have hempty : "" ≠ listText rpn := fun htext => h (listText_eq_empty_iff.mp htext.symm)
  have hstory := story_of s
  generalize Evaluation.of s = e at hstory ⊢
  cases hstory with
  | unread hts => simp [hts, Trace.empty, hempty]
  | unordered hts hrpn => simp [hts, hrpn, hempty]
  | valued hts hrpn hv => simp [hts, hrpn, listText_injective.eq_iff]
  | unvalued hts hrpn hk => simp [hts, hrpn, listText_injective.eq_iff]

/-- Both texts together tell the tokens and their order, even if it is empty. -/
theorem trace_iff {s : String} {ts rpn : List Token} (h : ts ≠ [])
    (hrpn : Postfix.ofTokens ts = .ok rpn) :
    (Evaluation.of s).trace = ⟨listText ts, listText rpn⟩ ↔ ofText s = .ok ts := by
  constructor
  · intro htrace
    exact (trace_tokens_iff h).mp (congrArg Trace.tokens htrace)
  · intro hts
    have hstory := story_of s
    generalize Evaluation.of s = e at hstory ⊢
    cases hstory with
    | unread hts' => cases hts.symm.trans hts'
    | unordered hts' hrpn' =>
      cases hts.symm.trans hts'
      cases hrpn.symm.trans hrpn'
    | valued hts' hrpn' hv =>
      cases hts.symm.trans hts'
      cases hrpn.symm.trans hrpn'
      rfl
    | unvalued hts' hrpn' hk =>
      cases hts.symm.trans hts'
      cases hrpn.symm.trans hrpn'
      rfl

end Evaluation

/-- Numbers have one text exactly if they have the same bits, and lists of tokens
    exactly if they are equal. So the panel shows tokens, unless there are none, exactly
    if they were read, or put in postfix order, and both where that order is empty. The
    log has their line exactly then, even if there are none. -/
theorem traces_tell :
    (∀ x y : Float, Number.text x = Number.text y ↔ x.toBits = y.toBits) ∧
    (∀ ts us : List Token, listText ts = listText us ↔
      ts.length = us.length ∧ ∀ i : Nat, ts[i]? = us[i]?) ∧
    (∀ s ts, ts ≠ [] → ((Evaluation.of s).trace.tokens = listText ts ↔ ofText s = .ok ts)) ∧
    (∀ s rpn, rpn ≠ [] → ((Evaluation.of s).trace.rpn = listText rpn ↔
      ∃ ts, ofText s = .ok ts ∧ Postfix.ofTokens ts = .ok rpn)) ∧
    (∀ s ts rpn, ts ≠ [] → Postfix.ofTokens ts = .ok rpn →
      ((Evaluation.of s).trace = ⟨listText ts, listText rpn⟩ ↔ ofText s = .ok ts)) ∧
    (∀ s ts, (Record.tokens (listText ts)).line ∈ (Evaluation.of s).records.map Record.line ↔
      ofText s = .ok ts) ∧
    ∀ s rpn, (Record.rpn (listText rpn)).line ∈ (Evaluation.of s).records.map Record.line ↔
      ∃ ts, ofText s = .ok ts ∧ Postfix.ofTokens ts = .ok rpn := by
  refine ⟨fun x y => ?_, fun ts us => ?_, fun _ _ => Evaluation.trace_tokens_iff,
    fun _ _ => Evaluation.trace_rpn_iff, fun _ _ _ => Evaluation.trace_iff,
    fun _ _ => Evaluation.tokens_line_iff, fun _ _ => Evaluation.rpn_line_iff⟩
  · rw [Number.text_injective.eq_iff, Float.toBits_inj]
  · rw [listText_injective.eq_iff]
    constructor
    · rintro rfl
      exact ⟨rfl, fun _ => rfl⟩
    · exact fun h => List.ext_getElem? h.2

/-- A minus sign that stands alone is told from the sign of a number. -/
theorem traces_tell_minus :
    listText [.num 1, .op (.binary .sub), .num 2] ≠ listText [.num 1, .num (-2)] ∧
    (Evaluation.of "1-2").trace.tokens = listText [.num 1, .op (.binary .sub), .num 2] ∧
    (Evaluation.of "1-2").trace.rpn = listText [.num 1, .num 2, .op (.binary .sub)] ∧
    (Evaluation.of "1-2").trace = ⟨listText [.num 1, .op (.binary .sub), .num 2],
      listText [.num 1, .num 2, .op (.binary .sub)]⟩ := by
  have hts : ofText "1-2" = .ok [.num 1, .op (.binary .sub), .num 2] :=
    eq_ok_of_toOption (by decide +kernel)
  have hrpn : Postfix.ofTokens [.num 1, .op (.binary .sub), .num 2] =
      .ok [.num 1, .num 2, .op (.binary .sub)] := eq_ok_of_toOption (by decide +kernel)
  obtain ⟨-, hlists, htokens, hordered, hboth, -, -⟩ := traces_tell
  refine ⟨fun h => ?_, (htokens _ _ (List.cons_ne_nil _ _)).mpr hts,
    (hordered _ _ (List.cons_ne_nil _ _)).mpr ⟨_, hts, hrpn⟩,
    (hboth _ _ _ (List.cons_ne_nil _ _) hrpn).mpr hts⟩
  exact absurd ((hlists _ _).mp h).1 (by decide)

end Calculator
