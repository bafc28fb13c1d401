import CanaTune.Proxy.Stream

/-! Token counting does not depend on how the stream is cut. Two separators have a priority between them, so a whole
    feed and a chunked one may cut different events; what both read are the same lines, and both stop at the same byte. -/

namespace CanaTune
variable {K : Type} [Scalar K]

/-! ### The next event -/

/-- CR LF CR LF. -/
def crlf : Bytes := [13, 10, 13, 10]

/-- LF LF. -/
def lflf : Bytes := [10, 10]

theorem nextEvent_eq (buffer : Bytes) : nextEvent buffer = match Bytes.find crlf buffer with
    | some i => some (buffer.take i, buffer.drop (i + 4))
    | none => (Bytes.find lflf buffer).map fun i => (buffer.take i, buffer.drop (i + 2)) := by
  have hsep : separators = [crlf, lflf] := rfl
  rw [nextEvent, hsep, List.findSome?_cons, List.findSome?_cons, List.findSome?_nil]
  cases h : Bytes.find crlf buffer with
  | some i => rfl
  | none => cases h' : Bytes.find lflf buffer <;> rfl

/-- No CR LF CR LF begins in a text that ends with LF LF and holds none itself. -/
theorem not_occurs_crlf {x z : Bytes} (hx : ∀ i, ¬Bytes.Occurs crlf (x ++ (lflf ++ z)) i) (y : Bytes) {i : ℕ}
    (hi : i < x.length + 2) : ¬Bytes.Occurs crlf (x ++ (lflf ++ z) ++ y) i := by
  intro h
  by_cases hin : i + 4 ≤ (x ++ (lflf ++ z)).length
  · exact hx i (h.of_append hin)
  -- The occurrence runs past the line feeds, so it holds the second one, and the first unless it begins after it.
  have hlen : (x ++ (lflf ++ z)).length = x.length + (2 + z.length) := by
    simp only [lflf, List.length_append, List.length_cons, List.length_nil]
  have hlf : ∀ k, k < 2 → (x ++ (lflf ++ z) ++ y)[x.length + k]? = some 10 := by
    intro k hk
    rw [List.append_assoc, List.getElem?_append_right (by omega), Nat.add_sub_cancel_left]
    match k, hk with
    | 0, _ => rfl
    | 1, _ => rfl
  obtain ⟨rest, hrest⟩ := h
  have hget : ∀ k, k < 4 → crlf[k]? = (x ++ (lflf ++ z) ++ y)[i + k]? := by
    intro k hk
    rw [← List.getElem?_drop, ← hrest, List.getElem?_append_left (by simpa [crlf] using hk)]
  have hsecond := hlf 1 (by decide)
  obtain rfl | rfl | hnext : i = x.length + 1 ∨ i = x.length ∨ x.length + 1 = i + 2 := by omega
  · exact absurd ((hget 0 (by decide)).trans hsecond) (by decide)
  · exact absurd ((hget 0 (by decide)).trans (hlf 0 (by decide))) (by decide)
  · rw [hnext] at hsecond
    exact absurd ((hget 2 (by decide)).trans hsecond) (by decide)

/-- What follows the first event, and its event, when more bytes are behind it. -/
theorem nextEvent_append {a e q : Bytes} (h : nextEvent a = some (e, q)) (b : Bytes) :
    nextEvent (a ++ b) = some (e, q ++ b) ∨
      ∃ f g, nextEvent (q ++ b) = some (f, g) ∧ nextEvent (a ++ b) = some (e ++ 10 :: 10 :: f, g) := by
  rw [nextEvent_eq] at h
  cases hcr : Bytes.find crlf a with
  -- A CRLF blank line in the first bytes is found before any that follows.
  | some i =>
    rw [hcr] at h
    obtain ⟨rfl, rfl⟩ := Prod.mk.inj (Option.some.inj h)
    obtain ⟨hocc, hi, -⟩ := Bytes.find_eq_some.mp hcr
    have hle := hocc.length_le hi
    simp only [crlf, List.length_cons, List.length_nil] at hle
    refine .inl ?_
    rw [nextEvent_eq, Bytes.find_append hcr]
    simp only
    rw [List.take_append_of_le_length hi, List.drop_append_of_le_length (by omega)]
  | none =>
    rw [hcr] at h
    obtain ⟨i, hi, he⟩ := Option.map_eq_some_iff.mp h
    obtain ⟨rfl, rfl⟩ := Prod.mk.inj he
    have hsplit : a = a.take i ++ (lflf ++ a.drop (i + 2)) := Bytes.split_of_find hi
    obtain ⟨hocc, hia, -⟩ := Bytes.find_eq_some.mp hi
    have hle : i + 2 ≤ a.length := hocc.length_le hia
    have hlen : (a.take i).length = i := List.length_take_of_le hia
    have hno := (Bytes.find_eq_none (by decide)).mp hcr
    rw [hsplit] at hno
    -- None ends before the line feeds do, also with more bytes behind.
    have hbefore : ∀ j, j < i + 2 → ¬Bytes.Occurs crlf (a ++ b) j := by
      intro j hj
      rw [hsplit]
      exact not_occurs_crlf hno b (by rwa [hlen])
    have hsplit' : a ++ b = (a.take i ++ lflf) ++ (a.drop (i + 2) ++ b) := by
      rw [List.append_assoc, ← List.append_assoc lflf, ← List.append_assoc, ← hsplit]
    have hplen : (a.take i ++ lflf).length = i + 2 := by rw [List.length_append, hlen, show lflf.length = 2 from rfl]
    have hbehind : ∀ j, Bytes.Occurs crlf (a ++ b) (i + 2 + j) ↔ Bytes.Occurs crlf (a.drop (i + 2) ++ b) j := by
      intro j
      rw [hsplit', ← hplen]
      exact Bytes.occurs_add
    -- So the first CRLF blank line of all is the first behind the line feeds, if there is one.
    cases hq : Bytes.find crlf (a.drop (i + 2) ++ b) with
    | none =>
      have hnone := (Bytes.find_eq_none (by decide)).mp hq
      have hall : Bytes.find crlf (a ++ b) = none := by
        refine (Bytes.find_eq_none (by decide)).mpr fun j hj => ?_
        rcases lt_or_ge j (i + 2) with hlt | hge
        · exact hbefore j hlt hj
        · obtain ⟨k, rfl⟩ := Nat.exists_eq_add_of_le hge
          exact hnone k ((hbehind k).mp hj)
      refine .inl ?_
      rw [nextEvent_eq, hall, Bytes.find_append hi]
      simp only [Option.map_some]
      rw [List.take_append_of_le_length hia, List.drop_append_of_le_length hle]
    | some j =>
      obtain ⟨hocc', hj, hfirst⟩ := Bytes.find_eq_some.mp hq
      have hsome : Bytes.find crlf (a ++ b) = some (i + 2 + j) := by
        refine Bytes.find_eq_some.mpr ⟨(hbehind j).mpr hocc', ?_, fun k hk hocc => ?_⟩
        · rw [hsplit', List.length_append, hplen]
          omega
        · rcases lt_or_ge k (i + 2) with hlt | hge
          · exact hbefore k hlt hocc
          · obtain ⟨k', rfl⟩ := Nat.exists_eq_add_of_le hge
            exact hfirst k' (by omega) ((hbehind k').mp hocc)
      refine .inr ⟨(a.drop (i + 2) ++ b).take j, (a.drop (i + 2) ++ b).drop (j + 4), ?_, ?_⟩
      · rw [nextEvent_eq, hq]
      · rw [nextEvent_eq, hsome]
        simp only
        rw [hsplit', ← hplen, Nat.add_assoc, List.take_length_add_append, List.drop_length_add_append, List.append_assoc]
        rfl

/-! ### What a feed reads -/

/-- Lines that a timer looks into. -/
def isDataLine (line : Bytes) : Bool := dataPrefix.isPrefixOf line

/-- The data lines of the complete events, and the bytes left. -/
def cut (buffer : Bytes) : List Bytes × Bytes :=
  match _ : nextEvent buffer with
  | none => ([], buffer)
  | some (event, rest) => ((Bytes.splitlines event).filter isDataLine ++ (cut rest).1, (cut rest).2)
termination_by buffer.length
decreasing_by all_goals exact nextEvent_length ‹_›

theorem cut_none {b : Bytes} (h : nextEvent b = none) : cut b = ([], b) := by
  rw [cut]
  split
  · rfl
  case h_2 h' => rw [h] at h'; cases h'

theorem cut_some {b e q : Bytes} (h : nextEvent b = some (e, q)) :
    cut b = ((Bytes.splitlines e).filter isDataLine ++ (cut q).1, (cut q).2) := by
  rw [cut]
  split
  case h_1 h' => rw [h] at h'; cases h'
  case h_2 h' =>
    rw [h] at h'
    cases h'
    rfl

theorem cut_rest (b : Bytes) : nextEvent (cut b).2 = none := by
  fun_induction cut b with
  | case1 b h => exact h
  | case2 b e q h ih => exact ih

/-- Cutting at once, or cutting what is there and the rest with what comes. -/
theorem cut_append (a b : Bytes) :
    cut (a ++ b) = ((cut a).1 ++ (cut ((cut a).2 ++ b)).1, (cut ((cut a).2 ++ b)).2) := by
  fun_induction cut a with
  | case1 a _ => simp
  | case2 a e q h ih =>
    have hq : cut (a ++ b) = ((Bytes.splitlines e).filter isDataLine ++ (cut (q ++ b)).1, (cut (q ++ b)).2) := by
      rcases nextEvent_append h b with hn | ⟨f, g, hf, hn⟩
      · exact cut_some hn
      · rw [cut_some hn, cut_some hf, Bytes.filter_splitlines_append rfl, ← List.append_assoc]
        congr 3
    rw [hq, ih, List.append_assoc]

namespace Tally
variable {d : Decoder K} {clock : ℕ → K}

theorem readLine_of_not {line : Bytes} (h : isDataLine line = false) (t : Tally K) :
    t.readLine d clock line = .ok (0, t) := by
  unfold readLine lineEvent
  rw [show (!dataPrefix.isPrefixOf line) = true by simpa [isDataLine] using h]
  rfl

theorem readLines_filter (lines : List Bytes) (t : Tally K) :
    readLines d clock (lines.filter isDataLine) t = readLines d clock lines t := by
  induction lines generalizing t with
  | nil => rfl
  | cons line lines ih =>
    cases h : isDataLine line with
    | true =>
      rw [List.filter_cons_of_pos h, readLines, readLines]
      simp only [ih]
    | false =>
      rw [List.filter_cons_of_neg (by simp [h]), ih, readLines, readLine_of_not h]
      simp only [bind, Except.bind, pure, Except.pure, zero_add]
      cases readLines d clock lines t <;> rfl

theorem readLines_append (l l' : List Bytes) (t : Tally K) : readLines d clock (l ++ l') t = do
    let (m, t) ← readLines d clock l t
    let (k, t) ← readLines d clock l' t
    return (m + k, t) := by
  induction l generalizing t with
  | nil =>
    simp only [List.nil_append, readLines, bind, Except.bind, pure, Except.pure, zero_add]
    cases readLines d clock l' t <;> rfl
  | cons line l ih =>
    rw [List.cons_append, readLines, readLines]
    cases t.readLine d clock line with
    | error e => rfl
    | ok a =>
      simp only [bind, Except.bind, pure, Except.pure, ih]
      cases readLines d clock l a.2 with
      | error e => rfl
      | ok a' =>
        dsimp only
        generalize readLines d clock l' a'.2 = b
        cases b with
        | error e => rfl
        | ok b => simp only [Nat.add_assoc]

theorem drain_none {b : Bytes} (h : nextEvent b = none) (t : Tally K) :
    drain d clock b t = .ok (0, { t with buffer := b }) := by
  rw [drain]
  split
  · rfl
  case h_2 h' => rw [h] at h'; cases h'

theorem drain_some {b e q : Bytes} (h : nextEvent b = some (e, q)) (t : Tally K) : drain d clock b t = do
    let (m, t) ← readLines d clock (Bytes.splitlines e) t
    let (k, t) ← drain d clock q t
    return (m + k, t) := by
  rw [drain]
  split
  case h_1 h' => rw [h] at h'; cases h'
  case h_2 h' =>
    rw [h] at h'
    cases h'
    rfl

/-- A feed reads the data lines of the complete events and keeps the rest. -/
theorem drain_eq (buffer : Bytes) (t : Tally K) : drain d clock buffer t = do
    let (m, t) ← readLines d clock (cut buffer).1 t
    return (m, { t with buffer := (cut buffer).2 }) := by
  fun_induction cut buffer generalizing t with
  | case1 buffer h => rw [drain_none h]; rfl
  | case2 buffer e q h ih =>
    rw [drain_some h, readLines_append, readLines_filter]
    cases readLines d clock (Bytes.splitlines e) t with
    | error e => rfl
    | ok a =>
      simp only [bind, Except.bind, pure, Except.pure, ih]
      cases readLines d clock (cut q).1 a.2 <;> rfl

end Tally

/-- The chunks of a stream are read as their concatenation is. -/
theorem feedAll_eq (d : Decoder K) (clock : ℕ → K) (chunks : List Bytes) (t : StreamTimer K)
    (h : nextEvent t.buffer = none) : t.feedAll d clock chunks = do
    let (m, u) ← Tally.readLines d clock (cut (t.buffer ++ chunks.flatten)).1 t.toTally
    return (m, { u with buffer := (cut (t.buffer ++ chunks.flatten)).2 }) := by
  induction chunks generalizing t with
  | nil =>
    rw [List.flatten_nil, List.append_nil, cut_none h]
    rfl
  | cons chunk chunks ih =>
    rw [StreamTimer.feedAll, StreamTimer.feed, Tally.drain_eq, List.flatten_cons, ← List.append_assoc,
      cut_append (t.buffer ++ chunk), Tally.readLines_append]
    cases Tally.readLines d clock (cut (t.buffer ++ chunk)).1 t.toTally with
    | error e => rfl
    | ok a =>
      have hrest := ih { a.2 with buffer := (cut (t.buffer ++ chunk)).2 } (cut_rest _)
      simp only [bind, Except.bind, pure, Except.pure] at hrest ⊢
      rw [hrest]
      generalize Tally.readLines d clock _ a.2 = b
      cases b <;> rfl

/-! ### The clock -/

/-- As many token events, and the same error. -/
def Alike (t u : Tally K) : Prop := u.tokenTimes.length = t.tokenTimes.length ∧ u.error = t.error

namespace Tally
variable {d : Decoder K}

theorem readLine_alike (clock clock' : ℕ → K) {line : Bytes} {t u t' : Tally K} {m : ℕ} (h : Alike t u)
    (ht : t.readLine d clock line = .ok (m, t')) : ∃ u', u.readLine d clock' line = .ok (m, u') ∧ Alike t' u' ∧
      t'.tokenTimes.length = t.tokenTimes.length + m := by
  unfold readLine at ht ⊢
  generalize lineEvent d line = result at ht ⊢
  cases result with
  | error e => cases ht
  | ok event =>
    cases event with
    | none =>
      cases ht
      exact ⟨u, rfl, h, rfl⟩
    | some event =>
      cases event with
      | token =>
        cases ht
        exact ⟨_, rfl, ⟨by simp [h.1], h.2⟩, by simp⟩
      | failed message =>
        cases ht
        exact ⟨_, rfl, ⟨h.1, rfl⟩, rfl⟩

/-- What is counted does not depend on the times. -/
theorem readLines_alike (clock clock' : ℕ → K) {lines : List Bytes} {t u t' : Tally K} {m : ℕ} (h : Alike t u)
    (ht : readLines d clock lines t = .ok (m, t')) : ∃ u', readLines d clock' lines u = .ok (m, u') ∧ Alike t' u' ∧
      t'.tokenTimes.length = t.tokenTimes.length + m := by
  induction lines generalizing t u m with
  | nil =>
    cases ht
    exact ⟨u, rfl, h, rfl⟩
  | cons line lines ih =>
    rw [readLines] at ht
    cases hline : t.readLine d clock line with
    | error e => rw [hline] at ht; cases ht
    | ok a =>
      obtain ⟨m₁, t₁⟩ := a
      rw [hline] at ht
      simp only [bind, Except.bind, pure, Except.pure] at ht
      cases hrest : readLines d clock lines t₁ with
      | error e => rw [hrest] at ht; cases ht
      | ok b =>
        obtain ⟨m₂, t₂⟩ := b
        rw [hrest] at ht
        cases ht
        obtain ⟨u₁, hu₁, halike₁, hlen₁⟩ := readLine_alike clock clock' h hline
        obtain ⟨u₂, hu₂, halike₂, hlen₂⟩ := ih halike₁ hrest
        refine ⟨u₂, ?_, halike₂, by omega⟩
        rw [readLines, hu₁]
        simp only [bind, Except.bind, pure, Except.pure, hu₂]

end Tally

/-- A feed records as many token events as it counts. -/
theorem StreamTimer.feed_length {d : Decoder K} {clock : ℕ → K} {t u : StreamTimer K} {chunk : Bytes} {m : ℕ}
    (h : t.feed d clock chunk = .ok (m, u)) : u.tokenTimes.length = t.tokenTimes.length + m := by
  rw [StreamTimer.feed, Tally.drain_eq] at h
  obtain ⟨⟨k, v⟩, hread, h⟩ := bind_eq_ok.mp h
  cases h
  obtain ⟨-, -, -, hlen⟩ := Tally.readLines_alike clock clock ⟨rfl, rfl⟩ hread
  exact hlen

namespace Tally
variable {d : Decoder K} {clock : ℕ → K}

theorem readUpTo_of_ok {lines : List Bytes} {t u : Tally K} {m : ℕ} (h : readLines d clock lines t = .ok (m, u)) :
    readUpTo d clock lines t = u := by
  induction lines generalizing t m with
  | nil =>
    cases h
    rfl
  | cons line lines ih =>
    rw [readLines] at h
    obtain ⟨⟨k, v⟩, hline, h⟩ := bind_eq_ok.mp h
    obtain ⟨⟨k', v'⟩, hrest, h⟩ := bind_eq_ok.mp h
    cases h
    rw [readUpTo, hline]
    exact ih hrest

theorem drainUpTo_of_ok {buffer : Bytes} {t : Tally K} {u : StreamTimer K} {m : ℕ}
    (h : drain d clock buffer t = .ok (m, u)) : drainUpTo d clock buffer t = u := by
  fun_induction drainUpTo d clock buffer t generalizing m with
  | case1 buffer t hnext =>
    rw [drain_none hnext] at h
    cases h
    rfl
  | case2 buffer t event rest hnext e hread =>
    rw [drain_some hnext, hread] at h
    cases h
  | case3 buffer t event rest hnext k v hread ih =>
    rw [drain_some hnext, hread] at h
    obtain ⟨_, hk, h⟩ := bind_eq_ok.mp h
    cases hk
    obtain ⟨⟨k', v'⟩, hrest, h⟩ := bind_eq_ok.mp h
    cases h
    exact ih hrest

end Tally

/-- A feed that returns leaves the timer it returns. -/
theorem StreamTimer.feedUpTo_of_ok {d : Decoder K} {clock : ℕ → K} {t u : StreamTimer K} {chunk : Bytes} {m : ℕ}
    (h : t.feed d clock chunk = .ok (m, u)) : t.feedUpTo d clock chunk = u := Tally.drainUpTo_of_ok h

/-- However the stream is cut, and whenever its chunks arrive: a stream that can be fed at once is counted the same,
    ends with the same error and leaves the same bytes. -/
theorem feed_chunks (d : Decoder K) (clock clock' : ℕ → K) (b : Bytes) (chunks : List Bytes) (hcut : chunks.flatten = b)
    {m : ℕ} {t : StreamTimer K} (h : StreamTimer.fresh.feed d clock b = .ok (m, t)) :
    ∃ u : StreamTimer K, StreamTimer.fresh.feedAll d clock' chunks = .ok (m, u) ∧ m = t.tokenTimes.length ∧
      u.tokenTimes.length = t.tokenTimes.length ∧ u.error = t.error ∧ u.buffer = t.buffer := by
  have hempty : nextEvent (StreamTimer.fresh : StreamTimer K).buffer = none := rfl
  rw [feedAll_eq d clock' chunks _ hempty, hcut]
  rw [StreamTimer.feed, Tally.drain_eq] at h
  generalize cut (StreamTimer.fresh.buffer ++ b) = c at h ⊢
  cases hread : Tally.readLines d clock c.1 (StreamTimer.fresh : StreamTimer K).toTally with
  | error e => rw [hread] at h; cases h
  | ok a =>
    obtain ⟨k, t'⟩ := a
    rw [hread] at h
    cases h
    obtain ⟨u', hu', halike, hlen⟩ := Tally.readLines_alike clock clock' ⟨rfl, rfl⟩ hread
    refine ⟨{ u' with buffer := c.2 }, ?_, ?_, halike.1, halike.2, rfl⟩
    · rw [hu']
      rfl
    · rw [show t'.tokenTimes.length = m from hlen.trans (Nat.zero_add m)]

/-- One choice chunk with the text `a`. -/
def smallPayload : Bytes :=
  [123, 34, 99, 104, 111, 105, 99, 101, 115, 34, 58, 91, 123, 34, 116, 101, 120, 116, 34, 58, 34, 97, 34, 125, 93, 125]

/-- Decodes that payload. -/
def smallDecoder : Decoder ℚ where
  loads payload :=
    if payload = smallPayload then .ok (.obj [("choices", .arr [.obj [("text", .str "a")]])]) else .error .value
  repr _ := ""

/-- Two token events, one ended by LF LF, the other by CR LF CR LF. -/
def smallStream : Bytes := dataPrefix ++ smallPayload ++ lflf ++ (dataPrefix ++ smallPayload ++ crlf)

/-- Cut between the two line feeds, with an empty chunk. -/
theorem feed_chunks_smallStream : ∃ t u : StreamTimer ℚ,
    StreamTimer.fresh.feed smallDecoder (fun _ => 0) smallStream = .ok (2, t) ∧
    StreamTimer.fresh.feedAll smallDecoder (fun _ => 1) [smallStream.take 32, [], smallStream.drop 32] = .ok (2, u) ∧
    u.error = t.error ∧ u.buffer = t.buffer := by
  have hcount : (match (StreamTimer.fresh : StreamTimer ℚ).feed smallDecoder (fun _ => 0) smallStream with
      | .ok (m, _) => m == 2
      | .error _ => false) = true := by decide +kernel
  generalize hfeed : (StreamTimer.fresh : StreamTimer ℚ).feed smallDecoder (fun _ => 0) smallStream = r at hcount
  cases r with
  | error e => cases hcount
  | ok a =>
    obtain ⟨m, t⟩ := a
    obtain rfl : m = 2 := by simpa using hcount
    obtain ⟨u, hu, -, -, herror, hbuffer⟩ := feed_chunks smallDecoder (fun _ => 0) (fun _ => 1) smallStream
      [smallStream.take 32, [], smallStream.drop 32] (by simp) hfeed
    exact ⟨t, u, rfl, hu, herror, hbuffer⟩

end CanaTune
