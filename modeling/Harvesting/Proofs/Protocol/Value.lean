import Harvesting.Proofs.Protocol.Frame
import Harvesting.Proofs.Protocol.Rendered

/-!
# Values in several pieces

The content of an element that is a value may be several pieces, with comments and instructions between
them. Each piece of character data is taken for the value, so that only the last one is left of them, and
of a set there are as many as there are pieces. The value is what the element holds if all pieces but the
last are blank.

* `Markup.Piece.data`, `Markup.Piece.isHeard` — what a piece stands for, and whether it is taken for a value;
* `Reading.Awaits`, `Reading.Takes` — a value can be read, and is being read;
* `Reading.run_flat` — the content of the element, piece by piece;
* `Reading.Takes.records_noted_iff` — what is left of it; `Envelope.recorded_iff` for elements of a response;
* `Envelope.value_in_pieces` — values that are not what their elements hold.
-/

namespace Harvesting

open Markup

namespace Markup

/-- The piece can stand in an element without being an element itself. -/
def Piece.isFlat : Piece → Bool
  | .text _ | .characters _ | .comment _ | .instruction _ => true
  | _ => false

/-- The characters that a piece stands for. -/
def Piece.data : Piece → Except Fault (List Char)
  | .text cs => unescape cs
  | .characters cs => .ok cs
  | _ => .ok []

/-- The piece is character data, and not only the blanks of markup. -/
def Piece.isHeard : Piece → Bool
  | .text cs => decide (strip cs ≠ [])
  | .characters _ => true
  | _ => false

/-- The data of pieces: of all, and of those that are heard. -/
inductive Hears : List Piece → List (List Char) → List (List Char) → Prop where
  | nil : Hears [] [] []
  | heard {p : Piece} {ps : List Piece} {v : List Char} {all heard : List (List Char)} :
      p.isHeard = true → p.data = .ok v → Hears ps all heard → Hears (p :: ps) (v :: all) (v :: heard)
  | unheard {p : Piece} {ps : List Piece} {v : List Char} {all heard : List (List Char)} :
      p.isHeard = false → p.data = .ok v → Text.trim v = [] → Hears ps all heard → Hears (p :: ps) (v :: all) heard

namespace Hears

variable {content : List Piece} {all heard : List (List Char)}

theorem all_eq (h : Hears content all heard) : content.mapM Piece.data = .ok all := by
  induction h with
  | nil => rfl
  | heard _ hdata _ ih =>
      rw [List.mapM_cons, hdata, ih]
      rfl
  | unheard _ hdata _ _ ih =>
      rw [List.mapM_cons, hdata, ih]
      rfl

theorem heard_eq (h : Hears content all heard) : (content.filter Piece.isHeard).mapM Piece.data = .ok heard := by
  induction h with
  | nil => rfl
  | heard hheard hdata _ ih =>
      rw [List.filter_cons_of_pos hheard, List.mapM_cons, hdata, ih]
      rfl
  | unheard hheard _ _ _ ih =>
      rw [List.filter_cons_of_neg (by simp [hheard])]
      exact ih

/-- What is not heard is blank. -/
theorem solid_flatten (h : Hears content all heard) : Text.solid all.flatten = Text.solid heard.flatten := by
  induction h with
  | nil => rfl
  | heard _ _ _ ih => rw [List.flatten_cons, List.flatten_cons, Text.solid_append, Text.solid_append, ih]
  | unheard _ _ hblank _ ih =>
      rw [List.flatten_cons, Text.solid_append, Text.solid_eq_nil_iff.2 hblank, List.nil_append, ih]

theorem trim_flatten (h : Hears content all heard) (hblank : ∀ v ∈ heard.dropLast, Text.trim v = []) :
    Text.trim all.flatten = Text.trim (heard.getLast?.getD []) := by
  induction h with
  | nil => rfl
  | @heard p ps v all heard _ _ hrest ih =>
      rw [List.flatten_cons]
      cases heard with
      | nil =>
          -- nothing but blanks follows the last value
          have hend : ∀ c ∈ all.flatten, Text.isBlank c = true := by
            rw [← Text.trim_eq_nil_iff, ← Text.solid_eq_nil_iff, hrest.solid_flatten]
            rfl
          exact Text.trim_around (List.forall_mem_nil _) hend v
      | cons w heard =>
          have hv := Text.trim_eq_nil_iff.1 (hblank v List.mem_cons_self)
          have hsame := Text.trim_around hv (List.forall_mem_nil _) all.flatten
          rw [List.append_nil] at hsame
          rw [hsame, ih fun x hx => hblank x (List.mem_cons_of_mem v hx), List.getLast?_cons_cons]
  | @unheard p ps v all heard _ _ hv _ ih =>
      have hsame := Text.trim_around (Text.trim_eq_nil_iff.1 hv) (List.forall_mem_nil _) all.flatten
      rw [List.append_nil] at hsame
      rw [List.flatten_cons, hsame, ih hblank]

/-- All data, trimmed, is the last piece that is heard exactly if the others are blank. -/
theorem trim_flatten_iff (h : Hears content all heard) :
    Text.trim all.flatten = Text.trim (heard.getLast?.getD []) ↔ ∀ v ∈ heard.dropLast, Text.trim v = [] := by
  refine ⟨?_, h.trim_flatten⟩
  intro heq v hv
  have hsolid := congrArg Text.solid heq
  rw [Text.solid_trim, Text.solid_trim, h.solid_flatten] at hsolid
  rcases List.eq_nil_or_concat heard with rfl | ⟨init, last, rfl⟩
  · cases hv
  · rw [List.concat_eq_append] at hsolid hv
    rw [List.dropLast_concat] at hv
    rw [List.flatten_append, Text.solid_append, List.getLast?_concat, List.flatten_singleton] at hsolid
    have hinit : Text.solid init.flatten = [] := List.append_left_eq_self.1 hsolid
    rw [← Text.solid_eq_nil_iff]
    rw [Text.solid, List.filter_eq_nil_iff] at hinit ⊢
    exact fun c hc => hinit c (List.mem_flatten.2 ⟨v, hv, hc⟩)

end Hears

end Markup

namespace Envelope

/-- The value that characters are. -/
def value (cs : List Char) : String := String.ofList (Text.trim cs)

theorem value_eq_iff {a b : List Char} : value a = value b ↔ Text.trim a = Text.trim b := String.ofList_inj

theorem value_eq_empty_iff {cs : List Char} : value cs = "" ↔ Text.trim cs = [] := String.ofList_eq_empty_iff

namespace Reading

variable {s s' : Reading} {f : Field} {p : Piece} {content : List Piece} {all heard : List (List Char)}

/-! ## The open field -/

/-- There is something of which the field is a part. -/
def Room (s : Reading) : Field → Prop
  | .token => True
  | .error => s.envelope.error.isSome = true
  | _ => s.record.isSome = true

/-- An element of the field would be read for its value. -/
def Awaits (s : Reading) (f : Field) : Prop :=
  s.payload = none ∧ (f = .token ∨ f = .error ∨ s.inHeader = true ∧ s.record.isSome = true)

/-- An element of the field is being read for its value. -/
structure Takes (s : Reading) (f : Field) : Prop where
  payload : s.payload = none
  field : s.field = some f
  room : s.Room f

theorem Takes.assign (h : s.Takes f) (v : String) : (s.assign f v).Takes f := by
  obtain ⟨hpayload, hfield, hroom⟩ := h
  cases f with
  | token => exact ⟨hpayload, hfield, hroom⟩
  | error => exact ⟨hpayload, hfield, by simpa [Room, Reading.assign] using hroom⟩
  | _ => exact ⟨hpayload, hfield, by simpa [Room, Reading.assign] using hroom⟩

theorem Takes.upTo (h : s.Takes f) (n : Nat) : (s.upTo n).Takes f := by
  obtain ⟨hpayload, hfield, hroom⟩ := h
  refine ⟨hpayload, hfield, ?_⟩
  cases f <;> exact hroom

theorem Takes.of_opening {a : List Char} (h : s.Awaits f) (ha : Element.ofTag a = .field f)
    (hstep : s.step (.opening a) = .ok s') : s'.Takes f ∧ s'.opened = Tag.name a :: s.opened := by
  obtain ⟨hpayload, hplace⟩ := h
  obtain ⟨opened, s₁, hnest, houtside, rfl⟩ := outside_of_step hpayload hstep
  cases hnest
  refine ⟨?_, rfl⟩
  change s.openTag a = .ok s₁ at houtside
  rw [openTag, ha] at houtside
  cases f with
  | token =>
      cases houtside
      exact ⟨hpayload, rfl, trivial⟩
  | error =>
      obtain ⟨s₂, herror, hs₁⟩ := bind_eq_ok.1 houtside
      obtain ⟨code, -, hs₂⟩ := bind_eq_ok.1 herror
      cases hs₂
      cases hs₁
      exact ⟨hpayload, rfl, rfl⟩
  | identifier | datestamp | setSpec =>
      obtain ⟨hheader, hrecord⟩ : s.inHeader = true ∧ s.record.isSome = true := by simpa using hplace
      simp only [hheader, if_true] at houtside
      cases houtside
      exact ⟨hpayload, rfl, hrecord⟩

/-! ## The content of the element -/

/-- One value after the other is noted for the field. -/
def noted (s : Reading) (f : Field) (vs : List (List Char)) : Reading := vs.foldl (fun s v => s.assign f (value v)) s

theorem noted_upTo (s : Reading) (n : Nat) (f : Field) (vs : List (List Char)) :
    (s.upTo n).noted f vs = (s.noted f vs).upTo n := by
  induction vs generalizing s with
  | nil => rfl
  | cons v vs ih =>
      have hassign : (s.upTo n).assign f (value v) = (s.assign f (value v)).upTo n := by cases f <;> rfl
      show ((s.upTo n).assign f (value v)).noted f vs = ((s.assign f (value v)).noted f vs).upTo n
      rw [hassign, ih]

theorem opened_noted (s : Reading) (f : Field) (vs : List (List Char)) : (s.noted f vs).opened = s.opened := by
  induction vs generalizing s with
  | nil => rfl
  | cons v vs ih =>
      show ((s.assign f (value v)).noted f vs).opened = s.opened
      rw [ih]
      cases f <;> rfl

theorem Takes.noted (h : s.Takes f) (vs : List (List Char)) : (s.noted f vs).Takes f := by
  induction vs generalizing s with
  | nil => exact h
  | cons v vs ih => exact ih (h.assign (value v))

/-- A piece of the content is heard as one more value, or it is blank and nothing is heard. -/
theorem Takes.step (h : s.Takes f) (hp : p.isFlat = true) (hstep : s.step p = .ok s') : ∃ v, p.data = .ok v ∧
    (p.isHeard = true ∧ s' = (s.assign f (value v)).upTo s'.offset ∨
      p.isHeard = false ∧ Text.trim v = [] ∧ s' = s.upTo s'.offset) := by
  obtain ⟨opened, s₁, hnest, houtside, rfl⟩ := outside_of_step h.payload hstep
  cases p with
  | text cs =>
      cases hnest
      change s.text cs = .ok s₁ at houtside
      rw [text, h.field] at houtside
      by_cases hblank : strip cs = []
      · rw [if_pos (.inr hblank)] at houtside
        cases houtside
        have hempty : unescape (strip cs) = .ok [] := by rw [hblank, unescape, unescapeFrom]
        obtain ⟨x, y, hx, hy, hdata⟩ := unescape_strip hempty
        refine ⟨_, hdata, .inr ⟨by simp [Piece.isHeard, hblank], ?_, rfl⟩⟩
        exact Text.trim_append (fun c hc => isBlank_of_isSpace (hx c hc)) (fun c hc => isBlank_of_isSpace (hy c hc)) rfl
      · rw [if_neg (by simp [hblank])] at houtside
        obtain ⟨out, hout, hs₁⟩ := bind_eq_ok.1 houtside
        obtain ⟨x, y, hx, hy, hdata⟩ := unescape_strip hout
        refine ⟨_, hdata, .inl ⟨by simp [Piece.isHeard, hblank], ?_⟩⟩
        have hvalue : value (x ++ (out ++ y)) = value out :=
          value_eq_iff.2 (Text.trim_around (fun c hc => isBlank_of_isSpace (hx c hc))
            (fun c hc => isBlank_of_isSpace (hy c hc)) out)
        cases hs₁
        rw [hvalue, characters, h.field]
        cases f <;> rfl
  | characters cs =>
      cases hnest
      cases houtside
      refine ⟨cs, rfl, .inl ⟨rfl, ?_⟩⟩
      rw [characters, h.field]
      cases f <;> rfl
  | comment _ | instruction _ =>
      cases hnest
      cases houtside
      exact ⟨[], rfl, .inr ⟨rfl, rfl, rfl⟩⟩
  | _ => cases hp

/-- The content of the element: each piece that is heard is noted for the field. -/
theorem run_flat (h : s.Takes f) (hcontent : ∀ p ∈ content, p.isFlat = true)
    (hrun : content.foldlM Reading.step s = .ok s') :
    ∃ all heard, Hears content all heard ∧ s' = (s.noted f heard).upTo s'.offset := by
  induction content generalizing s with
  | nil =>
      cases hrun
      exact ⟨[], [], .nil, rfl⟩
  | cons p ps ih =>
      obtain ⟨hp, hps⟩ := List.forall_mem_cons.1 hcontent
      rw [List.foldlM_cons] at hrun
      obtain ⟨s₁, hstep, hrun⟩ := bind_eq_ok.1 hrun
      obtain ⟨v, hdata, ⟨hheard, hs₁⟩ | ⟨hheard, hblank, hs₁⟩⟩ := h.step hp hstep
      · have htakes : s₁.Takes f := by
          rw [hs₁]
          exact (h.assign _).upTo _
        obtain ⟨all, heard, hhears, hs'⟩ := ih htakes hps hrun
        refine ⟨v :: all, v :: heard, .heard hheard hdata hhears, ?_⟩
        rw [hs₁, noted_upTo] at hs'
        exact hs'
      · have htakes : s₁.Takes f := by
          rw [hs₁]
          exact h.upTo _
        obtain ⟨all, heard, hhears, hs'⟩ := ih htakes hps hrun
        refine ⟨v :: all, heard, .unheard hheard hdata hblank hhears, ?_⟩
        rw [hs₁, noted_upTo] at hs'
        exact hs'

/-- The end tag of the element. -/
theorem close_of_step {a b : List Char} (hpayload : s.payload = none) (ha : Element.ofTag a = .field f)
    {outer : List (List Char)} (hopened : s.opened = Tag.name a :: outer) (hstep : s.step (.closing b) = .ok s') :
    s' = { s with field := none, opened := outer, offset := s'.offset } := by
  obtain ⟨opened, s₁, hnest, houtside, rfl⟩ := outside_of_step hpayload hstep
  rw [hopened, nest] at hnest
  split at hnest
  · next hname =>
    cases hnest
    cases houtside
    have hkind : Element.ofName (Tag.closedName b) = .field f := by rw [hname, ← ha, Element.ofTag]
    rw [closeTag, hkind]
  · cases hnest

/-! ## What is left of it -/

/-- What is known so far: the envelope and the record that is being read. -/
def known (s : Reading) : Envelope × Option Record := (s.envelope, s.record)

/-- From `s` to `s'`, the value was recorded for the field; nothing need be recorded of an empty value. -/
def Records (f : Field) (v : String) (s s' : Reading) : Prop :=
  s'.known = (s.assign f v).known ∨ v = "" ∧ s'.known = s.known

/-- The pieces that are heard make one value: there is one of them, or all but the last are blank. -/
def OneValue (f : Field) (heard : List (List Char)) : Prop :=
  if f = .setSpec then heard.length ≤ 1 else ∀ v ∈ heard.dropLast, Text.trim v = []

theorem noted_sets {r : Record} (h : s.record = some r) (vs : List (List Char)) :
    (s.noted .setSpec vs).known = (s.envelope, some { r with sets := r.sets ++ vs.map value }) := by
  induction vs generalizing s r with
  | nil => simp [noted, known, h]
  | cons v vs ih =>
      have hassign : (s.assign .setSpec (value v)).record = some { r with sets := r.sets ++ [value v] } := by
        simp [Reading.assign, h]
      have hrest := ih hassign
      simp only [List.append_assoc, List.singleton_append] at hrest
      exact hrest

/-- A value takes the place of the one before it. -/
theorem known_assign_assign (hf : f ≠ .setSpec) (s : Reading) (v w : String) :
    ((s.assign f v).assign f w).known = (s.assign f w).known := by
  cases f with
  | setSpec => exact absurd rfl hf
  | token => rfl
  | _ => simp [Reading.assign, known, Function.comp_def]

theorem known_noted (hf : f ≠ .setSpec) {last : List Char} (h : heard.getLast? = some last) (s : Reading) :
    (s.noted f heard).known = (s.assign f (value last)).known := by
  obtain ⟨init, rfl⟩ := List.getLast?_eq_some_iff.1 h
  clear h
  induction init generalizing s with
  | nil => rfl
  | cons v init ih =>
      rw [← known_assign_assign hf s (value v)]
      exact ih (s.assign f (value v))

/-- Values that differ are told apart. -/
theorem Takes.assign_inj (h : s.Takes f) (hf : f ≠ .setSpec) {v w : String}
    (heq : (s.assign f v).known = (s.assign f w).known) : v = w := by
  have hroom := h.room
  cases f with
  | setSpec => exact absurd rfl hf
  | token =>
      simp only [Reading.assign, known, Prod.mk.injEq, Envelope.mk.injEq] at heq
      by_cases hv : v = "" <;> by_cases hw : w = "" <;> simp_all
  | error =>
      obtain ⟨e, he⟩ := Option.isSome_iff_exists.1 hroom
      simpa [Reading.assign, known, he] using heq
  | identifier | datestamp =>
      obtain ⟨r, hr⟩ := Option.isSome_iff_exists.1 hroom
      simpa [Reading.assign, known, hr] using heq

theorem Takes.records_sets (h : s.Takes .setSpec) (hhears : Hears content all heard) :
    Records .setSpec (value all.flatten) s (s.noted .setSpec heard) ↔ heard.length ≤ 1 := by
  obtain ⟨r, hr⟩ := Option.isSome_iff_exists.1 h.room
  have hone (v : String) : (s.assign .setSpec v).known = (s.envelope, some { r with sets := r.sets ++ [v] }) := by
    simp [Reading.assign, known, hr]
  have hnone : s.known = (s.envelope, some { r with sets := r.sets ++ [] }) := by simp [known, hr]
  rw [Records, noted_sets hr, hone, hnone]
  simp only [Prod.mk.injEq, Option.some.injEq, Record.mk.injEq, true_and, and_true, List.append_cancel_left_eq,
    List.map_eq_nil_iff]
  constructor
  · rintro (h | ⟨-, h⟩)
    · have hlength := congrArg List.length h
      rw [List.length_map] at hlength
      exact Nat.le_of_eq hlength
    · rw [h]
      exact Nat.zero_le 1
  · intro hlength
    have htrim := hhears.trim_flatten
    rcases heard with _ | ⟨v, _ | ⟨w, heard⟩⟩
    · exact .inr ⟨value_eq_empty_iff.2 (htrim (List.forall_mem_nil _)), rfl⟩
    · refine .inl ?_
      rw [value_eq_iff.2 (htrim (List.forall_mem_nil _))]
      rfl
    · simp at hlength

/-- The value of the element is recorded exactly if the pieces that are heard make one value. -/
theorem Takes.records_noted_iff (h : s.Takes f) (hhears : Hears content all heard) :
    Records f (value all.flatten) s (s.noted f heard) ↔ OneValue f heard := by
  rw [OneValue]
  split
  · next hf =>
    subst hf
    exact h.records_sets hhears
  · next hf =>
    rw [← hhears.trim_flatten_iff]
    cases hlast : heard.getLast? with
    | none =>
        -- nothing is heard, and nothing is there to be heard
        obtain rfl := List.getLast?_eq_none_iff.1 hlast
        have hblank : Text.trim all.flatten = [] := hhears.trim_flatten (List.forall_mem_nil _)
        exact iff_of_true (.inr ⟨value_eq_empty_iff.2 hblank, rfl⟩) hblank
    | some last =>
        rw [Records, known_noted hf hlast, Option.getD_some]
        constructor
        · rintro (heq | ⟨hempty, -⟩)
          · exact (value_eq_iff.1 (h.assign_inj hf heq)).symm
          · have hsolid : Text.solid heard.flatten = [] := by
              rw [← hhears.solid_flatten, Text.solid_eq_nil_iff, value_eq_empty_iff.1 hempty]
            rw [Text.solid, List.filter_eq_nil_iff] at hsolid
            have hblank : Text.solid last = [] := by
              rw [Text.solid, List.filter_eq_nil_iff]
              exact fun c hc => hsolid c (List.mem_flatten.2 ⟨last, List.mem_of_getLast? hlast, hc⟩)
            rw [value_eq_empty_iff.1 hempty, Text.solid_eq_nil_iff.1 hblank]
        · intro heq
          exact .inl (by rw [value_eq_iff.2 heq])

end Reading

/-! ## Elements of a response -/

section

variable {body a b : List Char} {e : Envelope} {before content after : List Piece} {f : Field} {s : Reading}

/--
In a response that is read, an element that is awaited as a value and holds no other elements has all its
character data recorded, trimmed, if the pieces of it that are not blank are one. If they are more, each is
recorded by itself: in place of the one before it, or as one more set.
-/
theorem recorded_iff (hread : read body = .ok e)
    (hpieces : pieces (withoutMark body) = before ++ .opening a :: (content ++ .closing b :: after))
    (hbefore : before.foldlM Reading.step .start = .ok s) (hfield : Element.ofTag a = .field f)
    (hawaits : s.Awaits f) (hflat : ∀ p ∈ content, p.isFlat = true) :
    ∃ all heard s₁ s₂, content.mapM Piece.data = .ok all ∧
      (content.filter Piece.isHeard).mapM Piece.data = .ok heard ∧ s.step (.opening a) = .ok s₁ ∧
      (content ++ [Piece.closing b]).foldlM Reading.step s₁ = .ok s₂ ∧
      (do (← after.foldlM Reading.step s₂).finish) = .ok e ∧ s₂.known = (s₁.noted f heard).known ∧
      (Reading.Records f (value all.flatten) s₁ s₂ ↔ Reading.OneValue f heard) := by
  rw [read, hpieces, List.foldlM_append, hbefore] at hread
  obtain ⟨s', hrun, hfinish⟩ := bind_eq_ok.1 hread
  change (Piece.opening a :: (content ++ Piece.closing b :: after)).foldlM Reading.step s = .ok s' at hrun
  rw [List.foldlM_cons] at hrun
  obtain ⟨s₁, hopen, hrun⟩ := bind_eq_ok.1 hrun
  rw [List.foldlM_append] at hrun
  obtain ⟨s₂, hcontent, hrun⟩ := bind_eq_ok.1 hrun
  rw [List.foldlM_cons] at hrun
  obtain ⟨s₃, hclose, hafter⟩ := bind_eq_ok.1 hrun
  obtain ⟨htakes, hopened⟩ := Reading.Takes.of_opening hawaits hfield hopen
  obtain ⟨all, heard, hhears, hs₂⟩ := Reading.run_flat htakes hflat hcontent
  have htakes₂ : s₂.payload = none ∧ s₂.opened = Tag.name a :: s.opened := by
    rw [hs₂]
    refine ⟨?_, (Reading.opened_noted s₁ f heard).trans hopened⟩
    exact (Reading.Takes.noted htakes heard).payload
  have hs₃ := Reading.close_of_step htakes₂.1 hfield htakes₂.2 hclose
  have hknown : s₃.known = (s₁.noted f heard).known := by
    rw [hs₃, hs₂]
    rfl
  refine ⟨all, heard, s₁, s₃, hhears.all_eq, hhears.heard_eq, hopen, ?_, ?_, hknown, ?_⟩
  · rw [List.foldlM_append, hcontent]
    show [Piece.closing b].foldlM Reading.step s₂ = _
    rw [List.foldlM_cons, hclose]
    rfl
  · rw [hafter]
    exact hfinish
  · rw [← htakes.records_noted_iff hhears, Reading.Records, Reading.Records, hknown]

end

/-- A record of which the identifier is interrupted by a comment. -/
def sampleInterrupted : List Char :=
  ("<ListRecords><record><header><identifier>oai:<!-- x -->1</identifier>" ++
    "<setSpec>a<![CDATA[b]]></setSpec></header></record>" ++
    "<resumptionToken>c<![CDATA[d]]></resumptionToken></ListRecords>").toList

def sampleBefore : List Piece :=
  [.opening "ListRecords".toList, .opening "record".toList, .opening "header".toList]

def sampleContent : List Piece := [.text "oai:".toList, .comment " x ".toList, .text "1".toList]

/-- The reading in the header, before its identifier. -/
def sampleHeader : Reading :=
  ⟨⟨[], none, none⟩, some .empty, true, none, none, ["header".toList, "record".toList, "ListRecords".toList], 29⟩

theorem recorded_iff_interrupted : ∃ after e, read sampleInterrupted = .ok e ∧
    pieces (withoutMark sampleInterrupted) = sampleBefore ++ .opening "identifier".toList ::
      (sampleContent ++ .closing "identifier".toList :: after) ∧
    sampleBefore.foldlM Reading.step .start = .ok sampleHeader ∧
    Element.ofTag "identifier".toList = .field .identifier ∧ sampleHeader.Awaits .identifier ∧
    (∀ p ∈ sampleContent, p.isFlat = true) ∧
    ∃ all heard s₁ s₂, sampleContent.mapM Piece.data = .ok all ∧
      (sampleContent.filter Piece.isHeard).mapM Piece.data = .ok heard ∧
      sampleHeader.step (.opening "identifier".toList) = .ok s₁ ∧
      (sampleContent ++ [Piece.closing "identifier".toList]).foldlM Reading.step s₁ = .ok s₂ ∧
      (do (← after.foldlM Reading.step s₂).finish) = .ok e ∧ s₂.known = (s₁.noted .identifier heard).known ∧
      (Reading.Records .identifier (value all.flatten) s₁ s₂ ↔ Reading.OneValue .identifier heard) := by
  have hread : read sampleInterrupted = .ok ⟨[⟨"1", none, ["a", "b"], false, none⟩], some "d", none⟩ := by
    decide +kernel
  have hpieces : pieces (withoutMark sampleInterrupted) = sampleBefore ++ .opening "identifier".toList ::
      (sampleContent ++ .closing "identifier".toList :: (pieces (withoutMark sampleInterrupted)).drop 8) := by
    decide +kernel
  have hbefore : sampleBefore.foldlM Reading.step .start = .ok sampleHeader := by decide +kernel
  have hfield : Element.ofTag "identifier".toList = .field .identifier := by decide +kernel
  have hawaits : sampleHeader.Awaits .identifier := ⟨rfl, .inr (.inr ⟨rfl, rfl⟩)⟩
  have hflat : ∀ p ∈ sampleContent, p.isFlat = true := by decide
  exact ⟨_, _, hread, hpieces, hbefore, hfield, hawaits, hflat,
    recorded_iff hread hpieces hbefore hfield hawaits hflat⟩

/-- Of values in two pieces the first one is lost, and a set in two pieces is two sets. -/
theorem value_in_pieces :
    sampleContent.mapM Piece.data = .ok ["oai:".toList, [], "1".toList] ∧
    value ["oai:".toList, [], "1".toList].flatten = "oai:1" ∧
    read sampleInterrupted = .ok ⟨[⟨"1", none, ["a", "b"], false, none⟩], some "d", none⟩ := by
  decide +kernel

end Envelope

end Harvesting
