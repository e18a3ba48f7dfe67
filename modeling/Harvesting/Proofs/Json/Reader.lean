import Harvesting.Proofs.Json.Text

/-!
# JSON is read as it was written

The reader is followed through a text of a value. It is taken as one machine on characters, and each
lemma says what one piece of text does to it, whatever follows. The reader admits some depth only; beside
it stands one that opens what the other refuses as too deep, and both are followed at once.

* `Json.Takes` — a way to take tokens, as the reader does at the depths that it admits;
* `Json.Reads` — what the machine makes of the rest of a text;
* `Json.Reads.token`, `Json.Reads.blanks` — a token, and the blanks between tokens;
* `Json.reads_value` — any text of a value is read as that value;
* `Json.read_pretty`, `Json.read_compact` — the whole text of a value that is not too deep;
* `Json.readAnyDepth_compact` — the whole text of any value, with no limit of the depth;
* `Json.read_nested` — lists that are nested too deep are not read.
-/

namespace Harvesting.Json

/-! ## Ways to take tokens -/

/-- The machine takes a value next. -/
def Machine.Awaits (m : Machine) : Prop := m.expect = .value ∨ m.expect = .firstItem

/-- A step of the machine that opens what the reader refuses as too deep. -/
def Machine.stepAnyDepth (m : Machine) (t : Token) : Except Failure Machine :=
  match m.step t with
  | .error ⟨.tooDeep, p⟩ =>
    match t.kind with
    | .openList => .ok ⟨.firstItem, .list [] :: m.stack⟩
    | .openObject => .ok ⟨.firstName, .object [] "" :: m.stack⟩
    | _ => .error ⟨.tooDeep, p⟩
  | r => r

/-- The machine on a list of tokens that ends at `e`, with such a step. -/
def runWith (step : Machine → Token → Except Failure Machine) (e : Position) (m : Machine) :
    List Token → Except Failure Json
  | [] => m.atEnd e
  | t :: ts => do runWith step e (← step m t) ts

/-- The value of a text, however deep it is nested, or the first failure in it. -/
def readAnyDepth (s : String) : Except Failure Json :=
  (runWith Machine.stepAnyDepth (tokens s).2 Machine.start (tokens s).1).map ordered

theorem run_eq_runWith (e : Position) (m : Machine) (ts : List Token) :
    run e m ts = runWith Machine.step e m ts := by
  induction ts generalizing m with
  | nil => rfl
  | cons t ts ih =>
      rw [run, runWith]
      congr
      funext m'
      exact ih m'

theorem readAsWritten_eq (s : String) :
    readAsWritten s = runWith Machine.step (tokens s).2 Machine.start (tokens s).1 :=
  run_eq_runWith _ _ _

/-- A step that does what the reader's does, and opens lists and objects where so many are open as are
admitted. -/
structure Takes (step : Machine → Token → Except Failure Machine) (admits : Nat → Prop) : Prop where
  agrees : ∀ {m t m'}, m.step t = .ok m' → step m t = .ok m'
  openList : ∀ {m t}, m.Awaits → admits m.stack.length → t.kind = .openList →
    step m t = .ok ⟨.firstItem, .list [] :: m.stack⟩
  openObject : ∀ {m t}, m.Awaits → admits m.stack.length → t.kind = .openObject →
    step m t = .ok ⟨.firstName, .object [] "" :: m.stack⟩

/-- Where a value is awaited, it may begin with any token but the end of a list. -/
theorem step_of_awaits {m : Machine} {t : Token} (hm : m.Awaits) (ht : t.kind ≠ .closeList) :
    m.step t = m.onValue t := by
  rw [Machine.step.eq_def]
  rcases hm with hm | hm
  · simp only [hm]
    split
    · next heq => exact absurd heq ht
    · rfl
  · simp only [hm]

theorem step_openList {m : Machine} {t : Token} (hm : m.Awaits) (ht : t.kind = .openList) :
    m.step t = if maxDepth ≤ m.stack.length then .error ⟨.tooDeep, t.peek⟩
      else .ok ⟨.firstItem, .list [] :: m.stack⟩ := by
  rw [step_of_awaits hm (by simp [ht]), Machine.onValue, ht]

theorem step_openObject {m : Machine} {t : Token} (hm : m.Awaits) (ht : t.kind = .openObject) :
    m.step t = if maxDepth ≤ m.stack.length then .error ⟨.tooDeep, t.peek⟩
      else .ok ⟨.firstName, .object [] "" :: m.stack⟩ := by
  rw [step_of_awaits hm (by simp [ht]), Machine.onValue, ht]

theorem takes_step : Takes Machine.step (· < maxDepth) where
  agrees h := h
  openList hm hdepth ht := by
    rw [step_openList hm ht, if_neg (Nat.not_le.2 hdepth)]
  openObject hm hdepth ht := by
    rw [step_openObject hm ht, if_neg (Nat.not_le.2 hdepth)]

theorem takes_stepAnyDepth : Takes Machine.stepAnyDepth (fun _ => True) where
  agrees h := by
    rw [Machine.stepAnyDepth, h]
  openList {m t} hm _ ht := by
    rw [Machine.stepAnyDepth, step_openList hm ht]
    by_cases hdepth : maxDepth ≤ m.stack.length
    · simp only [if_pos hdepth, ht]
    · rw [if_neg hdepth]
  openObject {m t} hm _ ht := by
    rw [Machine.stepAnyDepth, step_openObject hm ht]
    by_cases hdepth : maxDepth ≤ m.stack.length
    · simp only [if_pos hdepth, ht]
    · rw [if_neg hdepth]

/-! ## Pieces of text -/

/-- From this state the machine reads the text, and the outcome is as `r` says. -/
structure Reads (step : Machine → Token → Except Failure Machine) (m : Machine) (cs : List Char)
    (r : Except Failure Json → Prop) : Prop where
  outcome : ∀ p, r (runWith step (tokensFrom p cs).2 m (tokensFrom p cs).1)

variable {step : Machine → Token → Except Failure Machine} {admits : Nat → Prop}
variable {m m' : Machine} {cs rest : List Char} {v : Json} {r : Except Failure Json → Prop}

theorem Reads.finish : Reads step ⟨.next v, []⟩ [] (· = .ok v) where
  outcome p := by
    rw [tokensFrom]
    rfl

theorem Reads.blanks {b : List Char} (hb : Blanks b) (h : Reads step m cs r) : Reads step m (b ++ cs) r := by
  induction b with
  | nil => exact h
  | cons c b ih =>
      have htail := ih fun d hd => hb d (List.mem_cons_of_mem c hd)
      constructor
      intro p
      rw [List.cons_append, tokensFrom, if_pos (hb c List.mem_cons_self)]
      exact htail.outcome (p.after c)

/-- The first token of a text, and the text after it. -/
theorem runWith_token {kind : TokenKind} {text : List Char} (htext : Spells kind text rest) (m : Machine)
    (p : Position) : ∃ t p', t.kind = kind ∧
      runWith step (tokensFrom p (text ++ rest)).2 m (tokensFrom p (text ++ rest)).1 =
        (step m t >>= fun m' => runWith step (tokensFrom p' rest).2 m' (tokensFrom p' rest).1) := by
  obtain ⟨c, cs, rfl, hc⟩ := htext.begins
  have hdrop : (cs ++ rest).drop ((c :: cs).length - 1) = rest := by
    rw [List.length_cons, Nat.add_sub_cancel, List.drop_left]
  rw [List.cons_append, tokensFrom, if_neg (by simp [hc]), ← List.cons_append, htext.token p]
  simp only [hdrop]
  exact ⟨_, _, rfl, rfl⟩

/-- The machine takes a token and goes on with what follows it. -/
theorem Reads.token {kind : TokenKind} {text : List Char} (htext : Spells kind text rest)
    (hstep : ∀ t : Token, t.kind = kind → step m t = .ok m') (h : Reads step m' rest r) :
    Reads step m (text ++ rest) r where
  outcome p := by
    obtain ⟨t, p', ht, hrun⟩ := runWith_token htext m p
    rw [hrun, hstep t ht]
    exact h.outcome p'

section

variable (hs : Takes step admits)
variable {stack : List Frame} {items : List Json} {members : List (String × Json)} {k : String}

include hs

/-- A token that is a value of its own. -/
theorem Reads.literal {text : List Char} (hm : m.Awaits) (htext : Spells (.literal v) text rest)
    (h : Reads step ⟨.next v, m.stack⟩ rest r) : Reads step m (text ++ rest) r := by
  apply Reads.token htext _ h
  intro t ht
  apply hs.agrees
  rw [step_of_awaits hm (by simp [ht]), Machine.onValue, ht]

theorem Reads.string {s : String} (hm : m.Awaits) (h : Reads step ⟨.next (.string s), m.stack⟩ rest r) :
    Reads step m (quote s ++ rest) r := by
  apply Reads.token (spells_quote s) _ h
  intro t ht
  apply hs.agrees
  rw [step_of_awaits hm (by simp [ht]), Machine.onValue, ht]

theorem Reads.openList (hm : m.Awaits) (hdepth : admits m.stack.length)
    (h : Reads step ⟨.firstItem, .list [] :: m.stack⟩ rest r) : Reads step m ('[' :: rest) r := by
  apply Reads.token spells_openList _ h
  intro t ht
  exact hs.openList hm hdepth ht

theorem Reads.openObject (hm : m.Awaits) (hdepth : admits m.stack.length)
    (h : Reads step ⟨.firstName, .object [] "" :: m.stack⟩ rest r) : Reads step m ('\x7b' :: rest) r := by
  apply Reads.token spells_openObject _ h
  intro t ht
  exact hs.openObject hm hdepth ht

theorem Reads.emptyList (h : Reads step ⟨.next (.array []), stack⟩ rest r) :
    Reads step ⟨.firstItem, .list [] :: stack⟩ (']' :: rest) r := by
  apply Reads.token spells_closeList _ h
  intro t ht
  apply hs.agrees
  rw [Machine.step.eq_def]
  simp only [ht]
  rfl

theorem Reads.emptyObject (h : Reads step ⟨.next (.object []), stack⟩ rest r) :
    Reads step ⟨.firstName, .object [] "" :: stack⟩ ('\x7d' :: rest) r := by
  apply Reads.token spells_closeObject _ h
  intro t ht
  apply hs.agrees
  rw [Machine.step.eq_def]
  simp only [ht]
  rfl

theorem Reads.nextItem (h : Reads step ⟨.value, .list (v :: items) :: stack⟩ rest r) :
    Reads step ⟨.next v, .list items :: stack⟩ (',' :: rest) r := by
  apply Reads.token spells_comma _ h
  intro t ht
  apply hs.agrees
  rw [Machine.step]
  simp only [Machine.onNext, ht]

theorem Reads.closeList (h : Reads step ⟨.next (.array (v :: items).reverse), stack⟩ rest r) :
    Reads step ⟨.next v, .list items :: stack⟩ (']' :: rest) r := by
  apply Reads.token spells_closeList _ h
  intro t ht
  apply hs.agrees
  rw [Machine.step]
  simp only [Machine.onNext, ht]

theorem Reads.nextMember
    (h : Reads step ⟨.name ((k, v) :: members), .object ((k, v) :: members) "" :: stack⟩ rest r) :
    Reads step ⟨.next v, .object members k :: stack⟩ (',' :: rest) r := by
  apply Reads.token spells_comma _ h
  intro t ht
  apply hs.agrees
  rw [Machine.step]
  simp only [Machine.onNext, ht]

theorem Reads.closeObject (h : Reads step ⟨.next (.object ((k, v) :: members).reverse), stack⟩ rest r) :
    Reads step ⟨.next v, .object members k :: stack⟩ ('\x7d' :: rest) r := by
  apply Reads.token spells_closeObject _ h
  intro t ht
  apply hs.agrees
  rw [Machine.step]
  simp only [Machine.onNext, ht]

/-- The machine takes a name next, after these members. -/
def AwaitsName (members : List (String × Json)) (e : Expect) : Prop :=
  e = .name members ∨ e = .firstName ∧ members = []

theorem Reads.name {e : Expect} {frame : Frame} (he : AwaitsName members e)
    (h : Reads step ⟨.colon, .object members k :: stack⟩ rest r) :
    Reads step ⟨e, frame :: stack⟩ (quote k ++ rest) r := by
  apply Reads.token (spells_quote k) _ h
  intro t ht
  apply hs.agrees
  rw [Machine.step.eq_def]
  rcases he with rfl | ⟨rfl, rfl⟩
  · simp only [ht, Machine.onName, List.drop_succ_cons, List.drop_zero]
  · simp only [ht, Machine.onName, List.drop_succ_cons, List.drop_zero]

theorem Reads.colon (h : Reads step ⟨.value, stack⟩ rest r) : Reads step ⟨.colon, stack⟩ (':' :: rest) r := by
  apply Reads.token spells_colon _ h
  intro t ht
  apply hs.agrees
  rw [Machine.step]
  simp only [ht]

end

/-! ## Values -/

theorem apart_comma (rest : List Char) : Apart (',' :: rest) := by
  intro c hc
  cases hc
  decide

theorem apart_blanks {b : List Char} (hb : Blanks b) (hrest : Apart rest) : Apart (b ++ rest) := by
  cases b with
  | nil => exact hrest
  | cons c b =>
      intro d hd
      cases hd
      have hspace := hb c List.mem_cons_self
      simp only [isSpace, Bool.or_eq_true, decide_eq_true_eq] at hspace
      rcases hspace with ((rfl | rfl) | rfl) | rfl <;> decide

/-- Any text of the value is read as that value, where so deep a value is admitted, whatever follows. -/
def ReadsBack (step : Machine → Token → Except Failure Machine) (admits : Nat → Prop) (v : Json) : Prop :=
  ∀ ⦃m : Machine⦄ ⦃text rest : List Char⦄ ⦃r : Except Failure Json → Prop⦄, Writes v text → m.Awaits →
    (∀ n < depth v, admits (m.stack.length + n)) → Apart rest → Reads step ⟨.next v, m.stack⟩ rest r →
    Reads step m (text ++ rest) r

section

variable (hs : Takes step admits)

include hs

/-- The items of a list, and its end. -/
theorem reads_items {stack : List Frame} {before xs : List Json} {text : List Char} {e : Expect}
    (htext : WritesItems xs text) (hxs : ∀ x ∈ xs, ReadsBack step admits x)
    (hdepth : ∀ x ∈ xs, ∀ n < depth x, admits (stack.length + 1 + n))
    (he : Machine.Awaits ⟨e, .list before :: stack⟩)
    (hnext : Reads step ⟨.next (.array (before.reverse ++ xs)), stack⟩ rest r) :
    Reads step ⟨e, .list before :: stack⟩ (text ++ ']' :: rest) r := by
  induction xs generalizing before e text with
  | nil => cases htext
  | cons x xs ih =>
      have hx := hxs x List.mem_cons_self
      have hdepthx := hdepth x List.mem_cons_self
      cases htext with
      | last hb htext hb' =>
          rw [List.append_assoc, List.append_assoc]
          apply Reads.blanks hb
          refine hx htext he hdepthx (apart_blanks hb' (by intro c hc; cases hc; decide)) ?_
          apply Reads.blanks hb'
          apply Reads.closeList hs
          rw [List.reverse_cons]
          exact hnext
      | more hb htext hb' hmore =>
          rw [List.append_assoc, List.append_assoc, List.append_assoc, List.cons_append]
          apply Reads.blanks hb
          refine hx htext he hdepthx (apart_blanks hb' (apart_comma _)) ?_
          apply Reads.blanks hb'
          apply Reads.nextItem hs
          refine ih hmore (fun y hy => hxs y (List.mem_cons_of_mem x hy))
            (fun y hy => hdepth y (List.mem_cons_of_mem x hy)) (.inl rfl) ?_
          rw [List.reverse_cons, List.append_assoc]
          exact hnext

/-- The members of an object, and its end. -/
theorem reads_members {stack : List Frame} {before ms : List (String × Json)} {text : List Char} {e : Expect}
    {frame : Frame} (htext : WritesMembers ms text) (hms : ∀ f ∈ ms, ReadsBack step admits f.2)
    (hdepth : ∀ f ∈ ms, ∀ n < depth f.2, admits (stack.length + 1 + n)) (he : AwaitsName before e)
    (hnext : Reads step ⟨.next (.object (before.reverse ++ ms)), stack⟩ rest r) :
    Reads step ⟨e, frame :: stack⟩ (text ++ '\x7d' :: rest) r := by
  induction ms generalizing before e frame text with
  | nil => cases htext
  | cons f ms ih =>
      have hf := hms f List.mem_cons_self
      have hdepthf := hdepth f List.mem_cons_self
      cases htext with
      | last hb hb₁ hb₂ htext hb' =>
          simp only [List.append_assoc, List.cons_append]
          apply Reads.blanks hb
          apply Reads.name hs he
          apply Reads.blanks hb₁
          apply Reads.colon hs
          apply Reads.blanks hb₂
          refine hf htext (.inl rfl) hdepthf (apart_blanks hb' (by intro c hc; cases hc; decide)) ?_
          apply Reads.blanks hb'
          apply Reads.closeObject hs
          rw [List.reverse_cons]
          exact hnext
      | more hb hb₁ hb₂ htext hb' hmore =>
          simp only [List.append_assoc, List.cons_append]
          apply Reads.blanks hb
          apply Reads.name hs he
          apply Reads.blanks hb₁
          apply Reads.colon hs
          apply Reads.blanks hb₂
          refine hf htext (.inl rfl) hdepthf (apart_blanks hb' (apart_comma _)) ?_
          apply Reads.blanks hb'
          apply Reads.nextMember hs
          refine ih hmore (fun g hg => hms g (List.mem_cons_of_mem _ hg))
            (fun g hg => hdepth g (List.mem_cons_of_mem _ hg)) (.inl rfl) ?_
          rw [List.reverse_cons, List.append_assoc]
          exact hnext

theorem reads_value (v : Json) : ReadsBack step admits v := by
  induction v using nestedInduction with
  | null =>
      intro m text rest r htext hm _ _ hnext
      cases htext
      exact Reads.literal hs hm spells_null hnext
  | bool b =>
      intro m text rest r htext hm _ _ hnext
      cases htext with
      | true => exact Reads.literal hs hm spells_true hnext
      | false => exact Reads.literal hs hm spells_false hnext
  | int n =>
      intro m text rest r htext hm _ hrest hnext
      cases htext with
      | int hn => exact Reads.literal hs hm (spells_int hn hrest) hnext
  | real x =>
      intro m text rest r htext
      cases htext
  | string s =>
      intro m text rest r htext hm _ _ hnext
      cases htext
      exact Reads.string hs hm hnext
  | array xs ih =>
      intro m text rest r htext hm hdepth _ hnext
      have hopen := hdepth 0 (Nat.succ_pos _)
      cases htext with
      | emptyList hb =>
          rw [List.cons_append, List.append_assoc]
          exact Reads.openList hs hm hopen (Reads.blanks hb (Reads.emptyList hs hnext))
      | list htext =>
          rw [List.cons_append, List.append_assoc]
          apply Reads.openList hs hm hopen
          refine reads_items hs htext ih ?_ (.inr rfl) hnext
          intro x hx n hn
          have hle := (depthItems_le (Nat.zero_le (depthItems xs))).1 (Nat.le_of_eq (Nat.zero_add _)) x hx
          rw [Nat.add_assoc]
          exact hdepth (1 + n) (by rw [depth]; omega)
  | object ms ih =>
      intro m text rest r htext hm hdepth _ hnext
      have hopen := hdepth 0 (Nat.succ_pos _)
      cases htext with
      | emptyObject hb =>
          rw [List.cons_append, List.append_assoc]
          exact Reads.openObject hs hm hopen (Reads.blanks hb (Reads.emptyObject hs hnext))
      | object htext =>
          rw [List.cons_append, List.append_assoc]
          apply Reads.openObject hs hm hopen
          refine reads_members hs htext ih ?_ (.inr ⟨rfl, rfl⟩) hnext
          intro f hf n hn
          have hle := (depthMembers_le (Nat.zero_le (depthMembers ms))).1 (Nat.le_of_eq (Nat.zero_add _)) f hf
          rw [Nat.add_assoc]
          exact hdepth (1 + n) (by rw [depth]; omega)

end

/-! ## The result -/

/-- A whole text of a value is read as that value. -/
theorem runWith_writes (hs : Takes step admits) {text : String} (htext : Writes v text.toList)
    (hdepth : ∀ n < depth v, admits n) :
    runWith step (tokens text).2 Machine.start (tokens text).1 = .ok v := by
  have hend : Apart [] := by
    intro c hc
    cases hc
  have hadmits : ∀ n < depth v, admits (Machine.start.stack.length + n) := by
    intro n hn
    rw [Machine.start, List.length_nil, Nat.zero_add]
    exact hdepth n hn
  have hreads : Reads step Machine.start (text.toList ++ []) (· = .ok v) :=
    reads_value hs v htext (.inl rfl) hadmits hend Reads.finish
  rw [List.append_nil] at hreads
  exact hreads.outcome Position.start

theorem read_writes {text : String} (htext : Writes v text.toList) (hwhole : Whole v)
    (hdepth : depth v ≤ maxDepth) : read text = .ok v := by
  rw [read, readAsWritten_eq, runWith_writes takes_step htext fun n hn => Nat.lt_of_lt_of_le hn hdepth]
  exact congrArg Except.ok (ordered_eq v hwhole)

/-- The text of a plain value is read as that value. -/
theorem read_pretty {v : Json} (h : Plain 0 v) : read v.pretty = .ok v := by
  obtain ⟨hwhole, hdepth⟩ := (plain_iff (Nat.zero_le _) v).1 h
  have htext : Writes v v.pretty.toList := by
    rw [pretty, String.toList_ofList]
    exact writes_pretty 0 v hwhole
  exact read_writes htext hwhole (by rwa [Nat.zero_add] at hdepth)

theorem read_compact (hwhole : Whole v) (hdepth : depth v ≤ maxDepth) : read v.compact = .ok v := by
  have htext : Writes v v.compact.toList := by
    rw [compact, String.toList_ofList]
    exact writes_compact v hwhole
  exact read_writes htext hwhole hdepth

theorem readAnyDepth_compact (h : Whole v) : readAnyDepth v.compact = .ok v := by
  have htext : Writes v v.compact.toList := by
    rw [compact, String.toList_ofList]
    exact writes_compact v h
  rw [readAnyDepth, runWith_writes takes_stepAnyDepth htext fun _ _ => trivial]
  exact congrArg Except.ok (ordered_eq v h)

/-! ## Values that are nested too deep -/

/-- A list in a list in a list, and so on, with nothing in the innermost one but `null`. -/
def nested : Nat → Json
  | 0 => .null
  | depth + 1 => .array [nested depth]

theorem nested_append {level depth : Nat} : prettyChars level (nested (depth + 1)) ++ rest =
    '[' :: (newline (level + 1) ++ (prettyChars (level + 1) (nested depth) ++ (newline level ++ ']' :: rest))) := by
  simp [nested, prettyChars, prettyItems, block, commaSeparated]

/-- A list that is opened too deep is a failure, whatever follows. -/
theorem reads_nested {m : Machine} {rest : List Char} (level depth : Nat) (hm : m.Awaits)
    (hstack : m.stack.length ≤ maxDepth) (hdepth : maxDepth < m.stack.length + depth) :
    Reads Machine.step m (prettyChars level (nested depth) ++ rest) (fun r => ∃ f, r = .error f) := by
  induction depth generalizing m level rest with
  | zero => omega
  | succ depth ih =>
      rw [nested_append]
      by_cases hopen : m.stack.length < maxDepth
      · apply Reads.openList takes_step hm hopen
        apply Reads.blanks (blanks_newline _)
        apply ih (level + 1) (.inr rfl)
        · simp only [List.length_cons]
          omega
        · simp only [List.length_cons]
          omega
      · constructor
        intro p
        obtain ⟨t, p', ht, hrun⟩ := runWith_token spells_openList m p
        rw [List.singleton_append] at hrun
        rw [hrun, step_openList hm ht, if_pos (Nat.le_of_not_lt hopen)]
        exact ⟨_, rfl⟩

theorem read_nested {depth : Nat} (h : maxDepth < depth) : ∃ f, read (nested depth).pretty = .error f := by
  have hreads : Reads Machine.step Machine.start (prettyChars 0 (nested depth) ++ [])
      (fun r => ∃ f, r = .error f) := by
    apply reads_nested 0 depth (.inl rfl) (Nat.zero_le _)
    rw [Machine.start, List.length_nil]
    omega
  rw [List.append_nil] at hreads
  obtain ⟨f, hf⟩ := hreads.outcome Position.start
  refine ⟨f, ?_⟩
  rw [read, readAsWritten_eq, tokens, pretty, String.toList_ofList, hf]
  rfl

end Harvesting.Json
