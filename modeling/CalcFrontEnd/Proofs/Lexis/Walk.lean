/-
  WALKS — a scanner may be asked for its items in two ways, and any mix of them walks one scan.

  1. **Data** — a `Call` is one of the two ways to ask: `next` gives an item in any case, `next?` none once
     it has given the end token itself.  The `transcript` of calls is each call with its answer.

  2. **Specification** — the items that are given are the items of the scan, and then its end token for
     ever.  Only `next?` is ever without an answer, exactly behind an end token that it gave.

  3. **The crux** — the two ways share the text and the line, and only the second has the flag.  So what
     lies `ahead` is defined without the flag: a call that gives an item takes it off the front, except
     for the end token, which stays (`ahead_of_end`, `ahead_of_not_end`), and the flag is up as soon as
     `next?` has given that token (`finished_answer_iff`).

  4. **Result** — `transcript_walks_scan`, by induction over the calls.
-/
import CalcFrontEnd.Proofs.Lexis.Partition

namespace CalcFrontEnd

/-- A way to ask a scanner for an item. -/
inductive Call where
  /-- The next item; at the end of the text the end token, as often as it is asked for. -/
  | next
  /-- The next item, unless this call has already given the end token. -/
  | next?
deriving DecidableEq, Repr

namespace Scanner

open Lexis

/-- The answer to a call, and the scanner behind it. -/
def answer (s : Scanner) : Call → Option Item × Scanner
  | .next => (some s.next.1, s.next.2)
  | .next? => s.next?

/-- The calls in order, each with its answer. -/
def transcript (s : Scanner) : List Call → List (Call × Option Item)
  | [] => []
  | call :: calls => (call, (s.answer call).1) :: (s.answer call).2.transcript calls

/-! ## What lies ahead -/

/-- The items that are still to come, up to the end token, whether or not `next?` has given that. -/
def ahead (s : Scanner) : List Item := ({ s with finished := false } : Scanner).collect.1

/-- The next item has nothing to do with the flag. -/
theorem next_with_finished (s : Scanner) (flag : Bool) :
    ({ s with finished := flag } : Scanner).next = (s.next.1, { s.next.2 with finished := flag }) := by
  cases hsplit : splitTrivia false s.rest with
  | mk gap rest =>
    have hflag : splitTrivia false ({ s with finished := flag } : Scanner).rest = (gap, rest) := hsplit
    cases rest with
    | nil => rw [next_of_nil hsplit, next_of_nil hflag]
    | cons c behind => rw [next_of_cons hsplit, next_of_cons hflag]

/-- At the end only the end token lies ahead. -/
theorem ahead_of_end {s : Scanner} (h : s.next.1.isEnd = true) : s.ahead = [s.next.1] := by
  unfold ahead
  rw [collect, if_neg Bool.false_ne_true, next_with_finished, if_pos h]

/-- Before it the next item lies ahead, and then what is ahead of the scanner behind that item. -/
theorem ahead_of_not_end {s : Scanner} (h : s.next.1.isEnd = false) :
    s.ahead = s.next.1 :: s.next.2.ahead := by
  have hnot : ¬s.next.1.isEnd = true := by simp [h]
  unfold ahead
  rw [collect, if_neg Bool.false_ne_true, next_with_finished, if_neg hnot]

/-- The end token is given again and again. -/
theorem next_next_of_end {s : Scanner} (h : s.next.1.isEnd = true) :
    s.next.2.next.1 = s.next.1 := by
  cases hsplit : splitTrivia false s.rest with
  | mk gap rest =>
    cases rest with
    | nil =>
      rw [next_of_nil hsplit]
      rfl
    | cons c behind =>
      rw [next_of_cons hsplit, isEnd_item_cut] at h
      cases h

/-- No more items lie ahead than there are characters, and one. -/
theorem length_collect_le (s : Scanner) : s.collect.1.length ≤ s.rest.length + 1 := by
  fun_induction collect s with
  | case1 s _ => exact Nat.zero_le _
  | case2 s _ _ => exact Nat.le_add_left 1 _
  | case3 s _ hend items last hcollect ih =>
    have hshorter := (next_isEnd_or_shorter s).resolve_left hend
    rw [hcollect] at ih
    show items.length + 1 ≤ s.rest.length + 1
    change items.length ≤ _ at ih
    omega

/-! ## One call -/

/-- **What a call can do**: nothing, if it is `next?` behind its end token; else it gives the next item
    and leaves the scanner behind that. -/
theorem answer_cases (s : Scanner) (call : Call) :
    call = .next? ∧ s.finished = true ∧ s.answer call = (none, s) ∨
      (call = .next? → s.finished = false) ∧ (s.answer call).1 = some s.next.1 ∧
        (s.answer call).2.ahead = s.next.2.ahead := by
  cases call with
  | next => exact Or.inr ⟨(nomatch ·), rfl, rfl⟩
  | next? =>
    cases hfinished : s.finished with
    | true =>
      refine Or.inl ⟨rfl, rfl, ?_⟩
      show s.next? = _
      rw [next?, if_pos hfinished]
    | false =>
      have hnext : s.next? = (some s.next.1, { s.next.2 with finished := s.next.1.isEnd }) := by
        rw [next?, if_neg (by simp [hfinished])]
      refine Or.inr ⟨fun _ => rfl, ?_, ?_⟩
      · exact congrArg Prod.fst hnext
      · show (s.next?).2.ahead = _
        rw [hnext]
        rfl

/-- Only `next?` is without an answer, and only when it has ended. -/
theorem answer_eq_none_iff (s : Scanner) (call : Call) :
    (s.answer call).1 = none ↔ call = .next? ∧ s.finished = true := by
  rcases answer_cases s call with ⟨hcall, hfinished, hanswer⟩ | ⟨hopen, hanswer, -⟩
  · rw [hanswer]
    exact ⟨fun _ => ⟨hcall, hfinished⟩, fun _ => rfl⟩
  · rw [hanswer]
    constructor
    · intro h
      cases h
    · rintro ⟨hcall, hfinished⟩
      rw [hopen hcall] at hfinished
      cases hfinished

/-- **The flag goes up when `next?` gives the end token**, and never down. -/
theorem finished_answer_iff (s : Scanner) (call : Call) :
    (s.answer call).2.finished = true ↔
      s.finished = true ∨ call = .next? ∧ ∃ item, (s.answer call).1 = some item ∧ item.isEnd = true := by
  have hkeep : s.next.2.finished = s.finished :=
    congrArg (fun given => given.2.finished) (next_with_finished s s.finished)
  cases call with
  | next =>
    show s.next.2.finished = true ↔ _
    rw [hkeep]
    simp
  | next? =>
    show (s.next?).2.finished = true ↔ s.finished = true ∨ _ ∧ ∃ item, (s.next?).1 = some item ∧ _
    unfold next?
    cases hfinished : s.finished <;> simp [hfinished]

/-! ## Any number of calls -/

theorem map_fst_transcript (s : Scanner) (calls : List Call) :
    (s.transcript calls).map Prod.fst = calls := by
  induction calls generalizing s with
  | nil => rfl
  | cons call calls ih => exact congrArg (call :: ·) (ih _)

/-- **The calls give what lies ahead, in order**, and then the end token again and again. -/
theorem transcript_walks {last : Item} (calls : List Call) (s : Scanner)
    (hlast : ∀ item ∈ s.ahead, item.isEnd = true → item = last) :
    (s.transcript calls).filterMap Prod.snd <+: s.ahead ++ List.replicate calls.length last := by
  induction calls generalizing s with
  | nil => exact List.nil_prefix
  | cons call calls ih =>
    show List.filterMap Prod.snd ((call, (s.answer call).1) :: (s.answer call).2.transcript calls) <+:
      s.ahead ++ List.replicate (calls.length + 1) last
    rcases answer_cases s call with ⟨-, -, hanswer⟩ | ⟨-, hgiven, hahead⟩
    · -- nothing is given, and the scanner is where it was
      rw [hanswer, List.replicate_succ', ← List.append_assoc]
      exact (ih s hlast).trans (List.prefix_append _ _)
    · rw [List.filterMap_cons, hgiven]
      cases hend : s.next.1.isEnd with
      | false =>
        have hcons := ahead_of_not_end hend
        have hbehind := ih (s.answer call).2 (by
          intro item hmem
          rw [hahead] at hmem
          exact hlast item (hcons ▸ List.mem_cons_of_mem _ hmem))
        rw [hcons, ← hahead, List.replicate_succ', List.cons_append, ← List.append_assoc]
        exact List.cons_prefix_cons.mpr ⟨rfl, hbehind.trans (List.prefix_append _ _)⟩
      | true =>
        -- the end token is given, and it still lies ahead
        have hsame : (s.answer call).2.ahead = s.ahead := by
          have hnext := next_next_of_end hend
          rw [hahead, ahead_of_end hend, ahead_of_end (hnext ▸ hend), hnext]
        have hbehind := ih (s.answer call).2 (hsame ▸ hlast)
        have heq : s.next.1 = last := hlast _ (by rw [ahead_of_end hend]; exact List.mem_cons_self) hend
        rw [hsame, ahead_of_end hend, heq] at hbehind
        rw [ahead_of_end hend, heq, List.replicate_succ]
        exact List.cons_prefix_cons.mpr ⟨rfl, hbehind⟩

/-- **A call is without an answer** exactly if it is `next?` and the reading had ended before, or `next?`
    has given the end token since. -/
theorem unanswered_iff {before after : List (Call × Option Item)} {call : Call}
    {answer : Option Item} {calls : List Call} {s : Scanner}
    (h : s.transcript calls = before ++ (call, answer) :: after) :
    answer = none ↔ call = .next? ∧
      (s.finished = true ∨ ∃ item, (.next?, some item) ∈ before ∧ item.isEnd = true) := by
  induction calls generalizing s before with
  | nil => simp [transcript] at h
  | cons first calls ih =>
    cases before with
    | nil =>
      cases h
      rw [answer_eq_none_iff]
      simp
    | cons exchange before =>
      obtain ⟨rfl, hbehind⟩ := List.cons.inj h
      rw [ih hbehind, finished_answer_iff]
      refine and_congr_right fun _ => ?_
      constructor
      · rintro ((hfinished | ⟨rfl, item, hanswer, hend⟩) | ⟨item, hmem, hend⟩)
        · exact Or.inl hfinished
        · exact Or.inr ⟨item, hanswer ▸ List.mem_cons_self, hend⟩
        · exact Or.inr ⟨item, List.mem_cons_of_mem _ hmem, hend⟩
      · rintro (hfinished | ⟨item, hmem, hend⟩)
        · exact Or.inl (Or.inl hfinished)
        · rcases List.mem_cons.mp hmem with heq | hmem
          · obtain ⟨rfl, hanswer⟩ := Prod.mk.inj heq
            exact Or.inl (Or.inr ⟨rfl, item, hanswer.symm, hend⟩)
          · exact Or.inr ⟨item, hmem, hend⟩

/-- **Any mix of the two ways to ask walks the same scan.**  A scan has one end token, which is its last
    item, and one item more than there are characters at most.  Whatever calls are made, what they give
    is in order a front part of the scan continued by copies of that token; and a call is without an
    answer exactly if it is `next?` and an earlier `next?` has given the end token, whatever `next` gave. -/
theorem transcript_walks_scan (source : String) (calls : List Call) :
    ∃ front last, scan source = front ++ [.token (.endOfFile last)] ∧
      (∀ item ∈ front, item.isEnd = false) ∧
      (scan source).length ≤ source.length + 1 ∧
      ((ofText source).transcript calls).map Prod.fst = calls ∧
      ((ofText source).transcript calls).filterMap Prod.snd <+:
        scan source ++ List.replicate calls.length (.token (.endOfFile last)) ∧
      ∀ before call answer after,
        (ofText source).transcript calls = before ++ (call, answer) :: after →
        (answer = none ↔
          call = .next? ∧ ∃ item, (.next?, some item) ∈ before ∧ item.isEnd = true) := by
  obtain ⟨front, last, hscan, hlexeme⟩ := scan_ends source
  have hfront : ∀ item ∈ front, item.isEnd = false := by
    intro item hmem
    cases item with
    | token token => exact beq_eq_false_iff_ne.mpr (hlexeme token hmem).kind_ne.1
    | error error => rfl
  have hlast : ∀ item ∈ (ofText source).ahead, item.isEnd = true → item = .token (.endOfFile last) := by
    intro item hmem hend
    change item ∈ scan source at hmem
    rw [hscan] at hmem
    rcases List.mem_append.mp hmem with hmem | hmem
    · rw [hfront item hmem] at hend
      cases hend
    · exact List.mem_singleton.mp hmem
  refine ⟨front, last, hscan, hfront, ?_, map_fst_transcript _ calls,
    transcript_walks calls (ofText source) hlast, ?_⟩
  · rw [← String.length_toList]
    exact length_collect_le (ofText source)
  · intro before call answer after hsplit
    rw [unanswered_iff hsplit]
    simp [ofText]

/-- That `next` has given the end token does not end the reading. -/
example : (ofText "x").transcript [.next?, .next, .next?, .next?, .next] =
    [(.next?, some (.token ⟨.identifier, "x", 1⟩)), (.next, some (.token (.endOfFile 1))),
      (.next?, some (.token (.endOfFile 1))), (.next?, none),
      (.next, some (.token (.endOfFile 1)))] := by
  decide +kernel

end Scanner

end CalcFrontEnd
