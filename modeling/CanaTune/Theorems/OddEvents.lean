import CanaTune.Theorems.Stream

/-! Which upstream bytes the timer of a stream gets through. Decoding stands in the `try` block, the reading of
    `choices[0]` behind it: an event whose choices are no list of objects raises, and the proxy's stream breaks off. -/

namespace CanaTune
variable {K : Type} [Scalar K]

/-! ### One event -/

/-- A decoded body that the reader gets through: no object, an error event, no choices, or choices that begin with an
    object. -/
def Json.Harmless (body : Json K) : Prop :=
  ∀ fields, body.fields? = some fields →
    (getField fields "error").isNull = false ∨ (getField fields "choices").truthy = false ∨
      ∃ choice rest, getField fields "choices" = .arr (.obj choice :: rest)

/-- A data line that the reader gets through. -/
def Harmless (d : Decoder K) (line : Bytes) : Prop :=
  strip (line.drop 5) = donePayload ∨
    match d.loads (strip (line.drop 5)) with
    | .error e => e = .value ∨ e = .attribute
    | .ok body => body.Harmless

theorem isTokenChunk_ok {choice : Json K} : (∃ b, isTokenChunk choice = .ok b) ↔ ∃ fields, choice = .obj fields := by
  constructor
  · rintro ⟨b, hb⟩
    cases choice with
    | obj fields => exact ⟨fields, rfl⟩
    | _ => cases hb
  · rintro ⟨fields, rfl⟩
    unfold isTokenChunk Json.fields?
    dsimp only
    split
    · exact ⟨true, rfl⟩
    · split
      · exact ⟨false, rfl⟩
      · split
        · exact ⟨false, rfl⟩
        · exact ⟨_, rfl⟩

theorem firstChoice_ok {choices : Json K} :
    (∃ b, firstChoice choices = .ok b) ↔ ∃ choice rest, choices = .arr (.obj choice :: rest) := by
  constructor
  · rintro ⟨b, hb⟩
    cases choices with
    | arr items =>
      cases items with
      | nil => cases hb
      | cons choice rest =>
        obtain ⟨fields, rfl⟩ := isTokenChunk_ok.mp ⟨b, hb⟩
        exact ⟨fields, rest, rfl⟩
    | _ => cases hb
  · rintro ⟨choice, rest, rfl⟩
    exact isTokenChunk_ok.mpr ⟨choice, rfl⟩

/-- A data line is read without an exception exactly if it is harmless. -/
theorem lineEvent_ok {d : Decoder K} {line : Bytes} (hdata : isDataLine line) :
    (∃ event, lineEvent d line = .ok event) ↔ Harmless d line := by
  unfold lineEvent Harmless
  rw [if_neg (by simpa [isDataLine] using hdata)]
  dsimp only
  generalize strip (line.drop 5) = payload
  by_cases hdone : payload = donePayload
  · rw [if_pos hdone]
    exact ⟨fun _ => .inl hdone, fun _ => ⟨none, rfl⟩⟩
  rw [if_neg hdone, or_iff_right hdone]
  unfold eventBody
  -- A payload that does not parse is skipped where the source catches the exception.
  cases d.loads payload with
  | error e =>
    dsimp only
    by_cases he : e = .value ∨ e = .attribute
    · rw [if_pos he]
      exact ⟨fun _ => he, fun _ => ⟨none, rfl⟩⟩
    · rw [if_neg he]
      refine ⟨?_, fun h => absurd h he⟩
      rintro ⟨event, h⟩
      cases h
  | ok body =>
    simp only [bind, Except.bind, pure, Except.pure, Json.Harmless]
    cases body.fields? with
    | none => simp
    | some fields =>
      simp only [Option.some.injEq, forall_eq']
      cases herror : (getField fields "error").isNull with
      | false => simp
      | true =>
        cases htruthy : (getField fields "choices").truthy with
        | false => simp
        | true =>
          simp only [Bool.not_true, Bool.false_eq_true, if_false, if_true, reduceCtorEq, false_or]
          rw [← firstChoice_ok]
          cases firstChoice (getField fields "choices") with
          | error e => simp
          | ok b => cases b <;> simp

/-! ### A stream -/

theorem readLines_ok {d : Decoder K} {clock : ℕ → K} {lines : List Bytes} (hdata : ∀ line ∈ lines, isDataLine line)
    (t : Tally K) : (∃ r, Tally.readLines d clock lines t = .ok r) ↔ ∀ line ∈ lines, Harmless d line := by
  induction lines generalizing t with
  | nil => exact ⟨fun _ _ hline => absurd hline List.not_mem_nil, fun _ => ⟨_, rfl⟩⟩
  | cons line lines ih =>
    have hline := lineEvent_ok (d := d) (hdata line List.mem_cons_self)
    have hrest := ih fun line' hline' => hdata line' (List.mem_cons_of_mem _ hline')
    rw [List.forall_mem_cons, ← hline, Tally.readLines, Tally.readLine]
    constructor
    · rintro ⟨r, h⟩
      obtain ⟨⟨m, u⟩, hm, h⟩ := bind_eq_ok.mp h
      obtain ⟨event, hevent, -⟩ := bind_eq_ok.mp hm
      obtain ⟨r', hr', -⟩ := bind_eq_ok.mp h
      exact ⟨⟨event, hevent⟩, (hrest u).mp ⟨r', hr'⟩⟩
    · rintro ⟨⟨event, hevent⟩, h⟩
      rw [hevent]
      have hread : ∀ (m : ℕ) (u : Tally K), ∃ r,
          (Tally.readLines d clock lines u >>= fun e => pure (m + e.1, e.2)) = .ok r := by
        intro m u
        obtain ⟨r, hr⟩ := (hrest u).mpr h
        rw [hr]
        exact ⟨_, rfl⟩
      cases event with
      | none => exact hread 0 t
      | some event =>
        cases event with
        | token => exact hread 1 _
        | failed message => exact hread 0 _

theorem cut_data (buffer : Bytes) : ∀ line ∈ (cut buffer).1, isDataLine line := by
  fun_induction cut buffer with
  | case1 buffer h =>
    intro line hline
    cases hline
  | case2 buffer e q h ih =>
    intro line hline
    rcases List.mem_append.mp hline with hline | hline
    · exact (List.mem_filter.mp hline).2
    · exact ih line hline

theorem feedAll_ok (d : Decoder K) (clock : ℕ → K) (chunks : List Bytes) (t : StreamTimer K)
    (h : nextEvent t.buffer = none) : (∃ r, t.feedAll d clock chunks = .ok r) ↔
      ∀ line ∈ (cut (t.buffer ++ chunks.flatten)).1, Harmless d line := by
  have hread : (∃ r, Tally.readLines d clock (cut (t.buffer ++ chunks.flatten)).1 t.toTally = .ok r) ↔ _ :=
    readLines_ok (cut_data _) t.toTally
  rw [feedAll_eq d clock chunks t h, ← hread]
  constructor
  · rintro ⟨r, hr⟩
    obtain ⟨a, ha, -⟩ := bind_eq_ok.mp hr
    exact ⟨a, ha⟩
  · rintro ⟨a, ha⟩
    rw [ha]
    exact ⟨_, rfl⟩

/-- The stream is forwarded to its end exactly if every feed returns. -/
theorem forward_eq (d : Decoder K) (clock : ℕ → K) (chunks : List Bytes) (t : StreamTimer K) :
    (t.forward d clock chunks).1 = chunks ↔ ∃ r, t.feedAll d clock chunks = .ok r := by
  induction chunks generalizing t with
  | nil => exact ⟨fun _ => ⟨_, rfl⟩, fun _ => rfl⟩
  | cons chunk chunks ih =>
    rw [StreamTimer.forward, StreamTimer.feedAll]
    cases t.feed d clock chunk with
    | error e =>
      constructor
      · intro h
        cases h
      · rintro ⟨r, h⟩
        cases h
    | ok a =>
      obtain ⟨m, u⟩ := a
      dsimp only
      rw [List.cons_inj_right, ih u]
      constructor
      · rintro ⟨r, h⟩
        refine ⟨(m + r.1, r.2), ?_⟩
        simp only [bind, Except.bind, pure, Except.pure, h]
      · rintro ⟨r, h⟩
        obtain ⟨_, hfed, h⟩ := bind_eq_ok.mp h
        cases hfed
        obtain ⟨r', h', -⟩ := bind_eq_ok.mp h
        exact ⟨r', h'⟩

/-- Every feed of a stream returns, and every chunk of it is forwarded, exactly if every data line of its complete
    events is harmless. -/
theorem stream_unbroken_iff (d : Decoder K) (clock : ℕ → K) (chunks : List Bytes) :
    ((∃ r, (StreamTimer.fresh : StreamTimer K).feedAll d clock chunks = .ok r) ∧
      (StreamTimer.fresh.forward d clock chunks).1 = chunks) ↔
        ∀ line ∈ (cut chunks.flatten).1, Harmless d line := by
  rw [forward_eq, and_self, feedAll_ok d clock chunks StreamTimer.fresh rfl]
  rfl

/-- `{"choices": 5}` -/
def numberPayload : Bytes := [123, 34, 99, 104, 111, 105, 99, 101, 115, 34, 58, 32, 53, 125]

/-- Decodes that payload. -/
def numberDecoder : Decoder ℚ where
  loads payload := if payload = numberPayload then .ok (.obj [("choices", .int 5)]) else smallDecoder.loads payload
  repr := smallDecoder.repr

/-- An event whose choices are a number: the feed raises a `TypeError`, and neither its chunk nor the tokens of the next
    one are forwarded. -/
theorem forward_numberPayload :
    (match (StreamTimer.fresh : StreamTimer ℚ).feed numberDecoder (fun _ => 0) (dataPrefix ++ numberPayload ++ lflf) with
      | .ok _ => none
      | .error e => some e) = some PyError.type ∧
    (StreamTimer.fresh : StreamTimer ℚ).forward numberDecoder (fun _ => 0)
      [dataPrefix ++ numberPayload ++ lflf, smallStream] = ([], some .type) := by
  decide +kernel

end CanaTune
