import Harvesting.Proofs.Protocol.Envelope

/-!
# What a piece leaves as it is

Each kind of piece changes little of a reading. So some things are so however far a text has been read: the
record that is being read has an element that is open, and a message has an error to which it belongs.

* `Reading.outside_of_step` — one more piece, outside metadata;
* `Reading.header_frame`, `Reading.error_frame`, `Reading.characters_frame` — what a header, an error and
  character data change;
* `Reading.ended`, `Reading.closeTag_eq` — what end tags change, by the kind of their element;
* `Reading.outside_frame` — where a record and a message come from;
* `Reading.Sound`, `Reading.Sound.run` — what is so of every reading.
-/

namespace Harvesting

open Markup

namespace Envelope

namespace Reading

variable {s s' : Reading} {p : Piece} {ps : List Piece} {body : List Char} {opened : List (List Char)}

/-! ## Pieces -/

/-- A piece that is read outside metadata. -/
theorem outside_of_step (hpayload : s.payload = none) (h : s.step p = .ok s') : ∃ opened s₁,
    nest s.opened p = .ok opened ∧ s.outside p = .ok s₁ ∧
      s' = { s₁ with opened, offset := s.offset + Utf8.length p.source } := by
  obtain ⟨opened, hnest, -⟩ := bind_eq_ok.1 h
  rw [mapError_eq_ok] at hnest
  cases houtside : s.outside p with
  | error e => cases (step_outside_error hpayload hnest houtside).symm.trans h
  | ok s₁ =>
      cases (step_outside hpayload hnest houtside).symm.trans h
      exact ⟨opened, s₁, hnest, rfl, rfl⟩

theorem nest_cases {o o' : List (List Char)} (h : nest o p = .ok o') :
    (∃ n, o' = n :: o) ∨ (∃ b, p = .closing b ∧ o = Tag.closedName b :: o') ∨ o' = o := by
  rw [nest.eq_def] at h
  split at h
  · cases h
    exact .inl ⟨_, rfl⟩
  · split at h
    · cases h
    · split at h
      · next hname =>
        cases h
        exact .inr (.inl ⟨_, rfl, by rw [hname]⟩)
      · cases h
  · cases h
  · cases h
    exact .inr (.inr rfl)

theorem header_eq (s : Reading) (body : List Char) : s.header body =
    (Tag.attribute? deletedStatus.1 body).map fun status =>
      if status = some deletedStatus.2.toList then { s with record := s.record.map fun r => { r with deleted := true } }
      else s := by
  rw [header]
  cases Tag.attribute? deletedStatus.1 body with
  | error f => rfl
  | ok status =>
      show (if status = some deletedStatus.2.toList then _ else _) = Except.ok (if _ then _ else _)
      split <;> rfl

theorem error_eq (s : Reading) (body : List Char) : s.error body =
    (Tag.attribute? "code" body).map fun code => { s with envelope := { s.envelope with
      error := some ⟨(code.map String.ofList).getD unknownCode, ""⟩ } } := by
  rw [error]
  cases Tag.attribute? "code" body <;> rfl

/-- A header says something of the record and of nothing else. -/
theorem header_frame (h : s.header body = .ok s') :
    ∃ record, record.isSome = s.record.isSome ∧ s' = { s with record } := by
  rw [header_eq] at h
  obtain ⟨status, -, rfl⟩ := map_eq_ok.1 h
  split
  · exact ⟨_, Option.isSome_map, rfl⟩
  · exact ⟨s.record, rfl, rfl⟩

theorem error_frame (h : s.error body = .ok s') :
    ∃ e, s' = { s with envelope := { s.envelope with error := some e } } := by
  rw [error_eq] at h
  obtain ⟨code, -, rfl⟩ := map_eq_ok.1 h
  exact ⟨_, rfl⟩

theorem characters_frame (s : Reading) (cs : List Char) :
    s.characters cs = s ∨ ∃ f v, s.characters cs = s.assign f v := by
  rw [characters]
  split
  · exact .inr ⟨_, _, rfl⟩
  · exact .inl rfl

theorem text_frame {cs : List Char} (h : s.text cs = .ok s') : s' = s ∨ ∃ f v, s' = s.assign f v := by
  rw [text] at h
  split at h
  · cases h
    exact .inl rfl
  · obtain ⟨out, -, h⟩ := bind_eq_ok.1 h
    cases h
    exact characters_frame s out

theorem assign_frame (s : Reading) (f : Field) (v : String) :
    (s.assign f v).record.isSome = s.record.isSome ∧ (s.assign f v).field = s.field ∧
      (s.assign f v).envelope.error.isSome = s.envelope.error.isSome := by
  cases f <;> simp [assign]

/-- An empty element leaves the values that are being read and the header as they are. -/
theorem emptyTag_frame (h : s.emptyTag body = .ok s') : s'.record.isSome = s.record.isSome ∧
    s'.inHeader = s.inHeader ∧ s'.field = s.field ∧ s'.payload = s.payload ∧ s'.opened = s.opened := by
  have hsame : s.record.isSome = s.record.isSome ∧ s.inHeader = s.inHeader ∧ s.field = s.field ∧
      s.payload = s.payload ∧ s.opened = s.opened := ⟨rfl, rfl, rfl, rfl, rfl⟩
  rw [emptyTag] at h
  split at h
  · split at h
    · obtain ⟨record, hrecord, rfl⟩ := header_frame h
      exact ⟨hrecord, hsame.2⟩
    · cases h
      exact hsame
  · obtain ⟨e, rfl⟩ := error_frame h
    exact hsame
  · cases h
    exact hsame

/-- The reading behind an end tag of an element of that kind. -/
def ended (s : Reading) : Element → Reading
  | .header => { s with field := none, inHeader := false }
  | .record =>
    { s with
      envelope := { s.envelope with records := s.envelope.records ++ s.record.toList }
      record := none
      field := none }
  | _ => { s with field := none }

theorem closeTag_eq (s : Reading) (b : List Char) : s.closeTag b = s.ended (Element.ofName (Tag.closedName b)) := by
  rw [closeTag]
  cases Element.ofName (Tag.closedName b) <;> rfl

/-! ## Where a record and a message come from -/

/-- The message of an error has an error to go to. -/
def Voiced (s : Reading) : Prop := s.field = some .error → s.envelope.error.isSome = true

theorem voiced_of_ne (h : s.field ≠ some .error) : s.Voiced := fun hfield => absurd hfield h

theorem Voiced.assign (h : s.Voiced) (f : Field) (v : String) : (s.assign f v).Voiced := by
  obtain ⟨-, hfield, herror⟩ := assign_frame s f v
  rwa [Voiced, hfield, herror]

theorem Voiced.emptyTag (hs : s.Voiced) (h : s.emptyTag body = .ok s') : s'.Voiced := by
  rw [Reading.emptyTag] at h
  split at h
  · split at h
    · obtain ⟨record, -, rfl⟩ := header_frame h
      exact hs
    · cases h
      exact hs
  · obtain ⟨e, rfl⟩ := error_frame h
    exact fun _ => rfl
  · cases h
    exact hs

theorem openTag_frame (h : s.openTag body = .ok s') :
    (Element.ofTag body = .record ∧ s'.payload = s.payload ∨ s'.record.isSome = s.record.isSome) ∧
      (s.Voiced → s'.Voiced) := by
  rw [openTag] at h
  cases hkind : Element.ofTag body with
  | record =>
      rw [hkind] at h
      cases h
      exact ⟨.inl ⟨rfl, rfl⟩, id⟩
  | other =>
      rw [hkind] at h
      cases h
      exact ⟨.inr rfl, id⟩
  | header =>
      rw [hkind] at h
      change (if s.record.isSome then _ else _) = _ at h
      split at h
      · obtain ⟨record, hrecord, rfl⟩ := header_frame h
        exact ⟨.inr hrecord, id⟩
      · cases h
        exact ⟨.inr rfl, id⟩
  | metadata =>
      rw [hkind] at h
      change (if s.record.isSome then _ else _) = _ at h
      split at h
      · cases h
        exact ⟨.inr rfl, id⟩
      · cases h
        exact ⟨.inr rfl, id⟩
  | field f =>
      rw [hkind] at h
      cases f with
      | token =>
          cases h
          exact ⟨.inr rfl, fun _ => voiced_of_ne (by simp)⟩
      | error =>
          obtain ⟨t, ht, h⟩ := bind_eq_ok.1 h
          cases h
          obtain ⟨e, rfl⟩ := error_frame ht
          exact ⟨.inr rfl, fun _ _ => rfl⟩
      | identifier | datestamp | setSpec =>
          cases h
          split
          · exact ⟨.inr rfl, fun _ => voiced_of_ne (by simp)⟩
          · exact ⟨.inr rfl, id⟩

theorem ended_frame (s : Reading) (kind : Element) :
    (s.ended kind).Voiced ∧ ((s.ended kind).record.isSome = true → s.record.isSome = true ∧ kind ≠ .record) := by
  cases kind with
  | record => exact ⟨nofun, nofun⟩
  | _ => exact ⟨nofun, fun h => ⟨h, nofun⟩⟩

/-- A record that is being read was opened by this piece, or was being read before and is not ended by it. -/
theorem outside_frame (h : s.outside p = .ok s') : (s.Voiced → s'.Voiced) ∧ (s'.record.isSome = true →
    (∃ body, p = .opening body ∧ Element.ofTag body = .record ∧ s'.payload = s.payload) ∨
      s.record.isSome = true ∧ ∀ b, p = .closing b → Element.ofName (Tag.closedName b) ≠ .record) := by
  have hassigned (h : s' = s ∨ ∃ f v, s' = s.assign f v) :
      (s.Voiced → s'.Voiced) ∧ s'.record.isSome = s.record.isSome := by
    rcases h with rfl | ⟨f, v, rfl⟩
    · exact ⟨id, rfl⟩
    · exact ⟨fun hs => hs.assign f v, (assign_frame s f v).1⟩
  cases p with
  | text cs =>
      obtain ⟨hvoiced, hrecord⟩ := hassigned (text_frame h)
      exact ⟨hvoiced, fun hsome => .inr ⟨hrecord ▸ hsome, nofun⟩⟩
  | characters cs =>
      cases h
      obtain ⟨hvoiced, hrecord⟩ := hassigned (characters_frame s cs)
      exact ⟨hvoiced, fun hsome => .inr ⟨hrecord ▸ hsome, nofun⟩⟩
  | opening body =>
      obtain ⟨hrecord, hvoiced⟩ := openTag_frame h
      refine ⟨hvoiced, ?_⟩
      intro hsome
      rcases hrecord with ⟨hkind, hpayload⟩ | hrecord
      · exact .inl ⟨body, rfl, hkind, hpayload⟩
      · exact .inr ⟨hrecord ▸ hsome, nofun⟩
  | single body =>
      obtain ⟨hrecord, -⟩ := emptyTag_frame h
      exact ⟨fun hs => hs.emptyTag h, fun hsome => .inr ⟨hrecord ▸ hsome, nofun⟩⟩
  | closing b =>
      cases h
      rw [closeTag_eq]
      obtain ⟨hvoiced, hrecord⟩ := ended_frame s (Element.ofName (Tag.closedName b))
      refine ⟨fun _ => hvoiced, ?_⟩
      intro hsome
      obtain ⟨hsome, hkind⟩ := hrecord hsome
      refine .inr ⟨hsome, ?_⟩
      rintro _ ⟨⟩
      exact hkind
  | comment _ | instruction _ | doctype _ _ | broken _ _ =>
      cases h
      exact ⟨id, fun hsome => .inr ⟨hsome, nofun⟩⟩

/-! ## Every reading -/

/-- A record is read inside an element that is open; metadata that is being read is inside this element too. -/
def Housed (s : Reading) : Prop := s.record.isSome = true → ∃ inner name outer,
  s.opened = inner ++ name :: outer ∧ Element.ofName name = .record ∧ ∀ q, s.payload = some q → outer.length < q.outer

/-- What is known of a reading, however far it has come. -/
structure Sound (s : Reading) : Prop where
  nested : s.Nested
  voiced : s.Voiced
  housed : s.Housed

theorem sound_start : start.Sound := ⟨nested_start, nofun, nofun⟩

/-- The element of the record stays open behind a piece that does not close it. -/
theorem housed_nest {inner outer : List (List Char)} {name : List Char} (hnest : nest s.opened p = .ok opened)
    (hopened : s.opened = inner ++ name :: outer)
    (hstays : ∀ b, p = .closing b → inner = [] → Tag.closedName b ≠ name) :
    ∃ inner', opened = inner' ++ name :: outer := by
  rcases nest_cases hnest with ⟨n, rfl⟩ | ⟨b, hp, hclosed⟩ | rfl
  · exact ⟨n :: inner, by rw [hopened, List.cons_append]⟩
  · rw [hclosed] at hopened
    cases inner with
    | nil => exact absurd (List.cons.inj hopened).1 (hstays b hp rfl)
    | cons x inner => exact ⟨inner, (List.cons.inj hopened).2⟩
  · exact ⟨inner, hopened⟩

theorem Sound.inside (hs : s.Sound) {q : Payload} (hpayload : s.payload = some q)
    (hnest : nest s.opened p = .ok opened) : (s.inside q opened p).Voiced ∧
      ({ s.inside q opened p with opened } : Reading).Housed := by
  constructor
  · rw [Reading.inside]
    split
    · exact hs.voiced
    · exact hs.voiced
  · intro hsome
    have hrecord : s.record.isSome = true := by
      change (s.inside q opened p).record.isSome = true at hsome
      rw [Reading.inside] at hsome
      split at hsome
      · simpa using hsome
      · exact hsome
    obtain ⟨inner, name, outer, hopened, hkind, houter⟩ := hs.housed hrecord
    have hdeep := houter q hpayload
    -- an end tag closes an element inside the metadata or the metadata, so not the element of the record
    have hinner : inner ≠ [] := by
      rintro rfl
      have hlength := hs.nested q hpayload
      rw [hopened] at hlength
      simp only [List.nil_append, List.length_cons] at hlength
      omega
    obtain ⟨inner', rfl⟩ := housed_nest hnest hopened fun _ _ hnil => absurd hnil hinner
    refine ⟨inner', name, outer, rfl, hkind, ?_⟩
    intro q' hq'
    change (s.inside q _ p).payload = some q' at hq'
    rw [Reading.inside] at hq'
    split at hq'
    · cases hq'
    · cases hq'
      exact hdeep

theorem Sound.outside (hs : s.Sound) (hpayload : s.payload = none) (hnest : nest s.opened p = .ok opened)
    (h : s.outside p = .ok s') : s'.Voiced ∧ ({ s' with opened } : Reading).Housed := by
  obtain ⟨hvoiced, hrecord⟩ := outside_frame h
  refine ⟨hvoiced hs.voiced, ?_⟩
  intro hsome
  rcases hrecord hsome with ⟨body, rfl, hkind, hsame⟩ | ⟨hsome, hends⟩
  · cases hnest
    refine ⟨[], Tag.name body, s.opened, rfl, hkind, ?_⟩
    intro q hq
    cases (hsame.trans hpayload).symm.trans hq
  · obtain ⟨inner, name, outer, hopened, hname, -⟩ := hs.housed hsome
    obtain ⟨inner', rfl⟩ := housed_nest hnest hopened fun b hp _ heq => hends b hp (by rw [heq, hname])
    refine ⟨inner', name, outer, rfl, hname, ?_⟩
    intro q hq
    rcases payload_outside h with hsame | ⟨body, -, hnew⟩
    · cases (hsame.trans hpayload).symm.trans hq
    · cases hnew.symm.trans hq
      show outer.length < s.opened.length
      rw [hopened, List.length_append, List.length_cons]
      omega

theorem Sound.step (hs : s.Sound) (h : s.step p = .ok s') : s'.Sound := by
  have hparts : s'.Voiced ∧ s'.Housed := by
    cases hpayload : s.payload with
    | some q =>
        obtain ⟨opened, hnest, -⟩ := bind_eq_ok.1 h
        rw [mapError_eq_ok] at hnest
        cases (step_inside hpayload hnest).symm.trans h
        exact hs.inside hpayload hnest
    | none =>
        obtain ⟨opened, s₁, hnest, houtside, rfl⟩ := outside_of_step hpayload h
        have hframe := hs.outside hpayload hnest houtside
        exact hframe
  exact ⟨hs.nested.step h, hparts.1, hparts.2⟩

theorem Sound.run (hs : s.Sound) (h : ps.foldlM Reading.step s = .ok s') : s'.Sound := by
  induction ps generalizing s with
  | nil =>
      cases h
      exact hs
  | cons p ps ih =>
      rw [List.foldlM_cons] at h
      obtain ⟨s₁, h₁, h⟩ := bind_eq_ok.1 h
      exact ih (hs.step h₁) h

end Reading

end Envelope

end Harvesting
