import Tabular.Text.Reader
import Tabular.Proofs.Text.Literal

/-!
What a reader takes, and the texts that stand in it.

`Reader.Takes` relates what a reader finds to the text that it takes off the front of its input.
Text without quotes and backslashes is plain: it opens and closes no literal. Where a text is plain
but for some texts in it (`PlainBut`), these texts alone decide whether it leaves a literal open.
Main statement: `PlainBut.closed_iff`.
-/

namespace Tabular

open Tabular.Text

/-! ### What a reader takes -/

/-- What a reader finds is related to the text that it takes off the front of its input. -/
def Reader.Takes {α : Type} (p : Reader α) (R : α → List Char → Prop) : Prop :=
  ∀ s a rest, p s = .found a rest → ∃ t, s = t ++ rest ∧ R a t

namespace Reader.Takes

variable {α β : Type} {p q : Reader α} {R R' : α → List Char → Prop} {S : β → List Char → Prop}

theorem mono (h : p.Takes R) (himp : ∀ a t, R a t → R' a t) : p.Takes R' := by
  intro s a rest hfound
  obtain ⟨t, hs, hR⟩ := h s a rest hfound
  exact ⟨t, hs, himp a t hR⟩

protected theorem pure {a : α} (h : R a []) : Reader.Takes (pure a) R := by
  intro s b rest hfound
  rw [Reader.pure_apply, Reading.found.injEq] at hfound
  obtain ⟨rfl, rfl⟩ := hfound
  exact ⟨[], rfl, h⟩

/-- One reader after another takes the two texts one after the other. -/
protected theorem bind {k : α → Reader β} (hp : p.Takes R)
    (hk : ∀ a t, R a t → (k a).Takes fun b u => S b (t ++ u)) : Reader.Takes (p >>= k) S := by
  intro s b rest hfound
  rw [Reader.bind_apply] at hfound
  cases ha : p s with
  | stuck later => exact nomatch (ha ▸ hfound)
  | broken => exact nomatch (ha ▸ hfound)
  | found a later =>
    rw [ha] at hfound
    obtain ⟨t, rfl, hR⟩ := hp s a later ha
    obtain ⟨u, rfl, hS⟩ := hk a t hR later b rest hfound
    exact ⟨t ++ u, (List.append_assoc t u rest).symm, hS⟩

protected theorem orElse (hp : p.Takes R) (hq : q.Takes R) : Reader.Takes (p <|> q) R := by
  intro s a rest hfound
  cases ha : p s with
  | found b later => exact hp s a rest (by rwa [Reader.orElse_of_found ha, ← ha] at hfound)
  | stuck later => exact hq s a rest (by rwa [Reader.orElse_of_stuck ha] at hfound)
  | broken => exact nomatch (Reader.orElse_of_broken ha ▸ hfound)

/-- A part that is missing takes nothing. -/
protected theorem optional (hp : p.Takes R) :
    (Reader.optional p).Takes fun a? t => a?.elim (t = []) (R · t) := by
  intro s a? rest hfound
  unfold Reader.optional at hfound
  cases ha : p s with
  | found a later =>
    rw [ha] at hfound
    obtain ⟨rfl, rfl⟩ := Reading.found.inj hfound
    exact hp s a later ha
  | stuck later =>
    rw [ha] at hfound
    obtain ⟨rfl, rfl⟩ := Reading.found.inj hfound
    exact ⟨[], rfl, rfl⟩
  | broken => exact nomatch (ha ▸ hfound)

protected theorem accepting {f : α → Option β} (hp : p.Takes R)
    (himp : ∀ a b t, f a = some b → R a t → S b t) : (Reader.accepting p f).Takes S := by
  intro s b rest hfound
  unfold Reader.accepting at hfound
  cases ha : p s with
  | stuck later => exact nomatch (ha ▸ hfound)
  | broken => exact nomatch (ha ▸ hfound)
  | found a later =>
    rw [ha] at hfound
    dsimp only at hfound
    cases hb : f a with
    | none => exact nomatch (hb ▸ hfound)
    | some b' =>
      rw [hb] at hfound
      obtain ⟨rfl, rfl⟩ := Reading.found.inj hfound
      obtain ⟨t, hs, hR⟩ := hp s a later ha
      exact ⟨t, hs, himp a b' t hb hR⟩

/-- Repetitions take what a concatenation of single texts may be. -/
protected theorem many {P : List Char → Prop} (hp : p.Takes fun _ t => P t) (hnil : P [])
    (happend : ∀ t u, P t → P u → P (t ++ u)) : (Reader.many p).Takes fun _ t => P t := by
  have within : ∀ fuel, (Reader.repeatWithin p fuel).Takes fun _ t => P t := by
    intro fuel
    induction fuel with
    | nil => exact .pure hnil
    | cons c fuel ih =>
      intro s as rest hfound
      unfold Reader.repeatWithin at hfound
      cases ha : p s with
      | stuck later =>
        rw [ha] at hfound
        obtain ⟨rfl, rfl⟩ := Reading.found.inj hfound
        exact ⟨[], rfl, hnil⟩
      | broken =>
        rw [ha] at hfound
        cases hfound
      | found a later =>
        rw [ha] at hfound
        dsimp only at hfound
        cases has : Reader.repeatWithin p fuel later with
        | stuck later' =>
          rw [has] at hfound
          cases hfound
        | broken =>
          rw [has] at hfound
          cases hfound
        | found as' later' =>
          rw [has] at hfound
          obtain ⟨rfl, rfl⟩ := Reading.found.inj hfound
          obtain ⟨t, rfl, ht⟩ := hp s a later ha
          obtain ⟨u, rfl, hu⟩ := ih later as' later' has
          exact ⟨t ++ u, (List.append_assoc t u later').symm, happend t u ht hu⟩
  exact fun s as rest hfound => within s s as rest hfound

/-- The text that is reported as taken is the text that is taken. -/
protected theorem taken (hp : p.Takes R) :
    (Reader.taken p).Takes fun u t => u = t ∧ ∃ a, R a t := by
  intro s u rest hfound
  unfold Reader.taken at hfound
  cases ha : p s with
  | stuck later => exact nomatch (ha ▸ hfound)
  | broken => exact nomatch (ha ▸ hfound)
  | found a later =>
    rw [ha] at hfound
    obtain ⟨rfl, rfl⟩ := Reading.found.inj hfound
    obtain ⟨t, rfl, hR⟩ := hp s a later ha
    refine ⟨t, rfl, ?_, a, hR⟩
    rw [List.length_append, Nat.add_sub_cancel, List.take_left]

end Reader.Takes

namespace Reader

theorem takes_char (c : Char) : (char c).Takes fun d t => d = c ∧ t = [c] := by
  intro s d rest hfound
  cases s with
  | nil => exact nomatch hfound
  | cons e s =>
    rw [char] at hfound
    by_cases he : e = c
    · rw [if_pos he] at hfound
      obtain ⟨rfl, rfl⟩ := Reading.found.inj hfound
      exact ⟨[c], he ▸ rfl, rfl, rfl⟩
    · rw [if_neg he] at hfound
      exact nomatch hfound

theorem takes_text (x : List Char) : (text x).Takes fun _ t => t = x := by
  intro s y rest hfound
  unfold text at hfound
  split at hfound
  · next hprefix =>
    obtain ⟨later, rfl⟩ := List.isPrefixOf_iff_prefix.1 hprefix
    obtain ⟨rfl, rfl⟩ := Reading.found.inj hfound
    exact ⟨x, by rw [List.drop_left], rfl⟩
  · exact nomatch hfound

theorem takes_takeWhile (f : Char → Bool) :
    (takeWhile f).Takes fun x t => x = t ∧ ∀ c ∈ t, f c = true := by
  intro s x rest hfound
  obtain ⟨rfl, rfl⟩ := Reading.found.inj hfound
  exact ⟨s.takeWhile f, List.takeWhile_append_dropWhile.symm, rfl,
    fun c hc => List.all_eq_true.1 List.all_takeWhile c hc⟩

theorem takes_takeWhile1 (f : Char → Bool) :
    (takeWhile1 f).Takes fun x t => x = t ∧ t ≠ [] ∧ ∀ c ∈ t, f c = true := by
  intro s x rest hfound
  unfold takeWhile1 at hfound
  split at hfound
  · exact nomatch hfound
  · next hne =>
    obtain ⟨t, hs, rfl, hall⟩ := takes_takeWhile f s x rest hfound
    obtain ⟨hx, -⟩ := Reading.found.inj hfound
    exact ⟨x, hs, rfl, hx ▸ hne, hall⟩

theorem takes_notBefore (f : Char → Bool) : (notBefore f).Takes fun _ t => t = [] := by
  intro s u rest hfound
  unfold notBefore at hfound
  split at hfound
  · exact nomatch hfound
  · obtain ⟨-, rfl⟩ := Reading.found.inj hfound
    exact ⟨[], rfl, rfl⟩

theorem takes_remainder : remainder.Takes fun x t => x = t := by
  intro s x rest hfound
  obtain ⟨rfl, rfl⟩ := Reading.found.inj hfound
  exact ⟨s, (List.append_nil s).symm, rfl⟩

theorem takes_ofScanner {scan : List Char → Option (List Char × List Char)}
    {P : List Char → Prop} (h : ∀ s x rest, scan s = some (x, rest) → s = x ++ rest ∧ P x) :
    (ofScanner scan).Takes fun x t => x = t ∧ P t := by
  intro s x rest hfound
  unfold ofScanner at hfound
  cases hscan : scan s with
  | none => exact nomatch (hscan ▸ hfound)
  | some found =>
    rw [hscan] at hfound
    obtain ⟨rfl, rfl⟩ := Reading.found.inj hfound
    obtain ⟨hs, hP⟩ := h s found.1 found.2 hscan
    exact ⟨found.1, hs, rfl, hP⟩

end Reader

namespace Text

/-! ### What the scanners take -/

theorem closeLiteral_eq_some {quote : Char} {escaped : Bool} {s x rest : List Char}
    (h : closeLiteral quote escaped s = some (x, rest)) : s = x ++ rest := by
  induction s generalizing quote escaped x with
  | nil => exact nomatch h
  | cons c s ih =>
    rw [closeLiteral] at h
    cases hnext : (Scan.inside quote escaped).next c with
    | outside =>
      rw [hnext] at h
      obtain ⟨rfl, rfl⟩ := Prod.mk.inj (Option.some.inj h)
      rfl
    | inside q e =>
      rw [hnext] at h
      obtain ⟨⟨y, later⟩, hlater, hx⟩ := Option.map_eq_some_iff.1 h
      obtain ⟨rfl, rfl⟩ := Prod.mk.inj hx
      rw [ih hlater, List.cons_append]

theorem literal?_eq_some {s x rest : List Char} (h : literal? s = some (x, rest)) :
    s = x ++ rest := by
  cases s with
  | nil => cases h
  | cons c s =>
    rw [literal?] at h
    by_cases hquote : isQuote c = true
    · rw [if_pos hquote] at h
      obtain ⟨⟨y, later⟩, hlater, hx⟩ := Option.map_eq_some_iff.1 h
      obtain ⟨rfl, rfl⟩ := Prod.mk.inj hx
      rw [closeLiteral_eq_some hlater, List.cons_append]
    · rw [if_neg hquote] at h
      cases h

theorem closeGroup_eq_some {st : Scan} {depth : Nat} {s x rest : List Char}
    (h : closeGroup st depth s = some (x, rest)) :
    s = x ++ rest ∧ ∃ inner, x = inner ++ [')'] := by
  induction s generalizing st depth x with
  | nil => exact nomatch h
  | cons c s ih =>
    -- Wherever the group is not closed here, it is closed further on.
    have later : ∀ {st depth}, (closeGroup st depth s).map (fun p => (c :: p.1, p.2)) =
        some (x, rest) → c :: s = x ++ rest ∧ ∃ inner, x = inner ++ [')'] := by
      intro st depth hmap
      obtain ⟨⟨y, later⟩, hlater, hx⟩ := Option.map_eq_some_iff.1 hmap
      obtain ⟨rfl, rfl⟩ := Prod.mk.inj hx
      obtain ⟨hs, inner, rfl⟩ := ih hlater
      exact ⟨by rw [hs, List.cons_append], c :: inner, rfl⟩
    unfold closeGroup at h
    split at h
    · exact nomatch ‹c :: s = []›
    · next hcons =>
      obtain ⟨rfl, rfl⟩ := List.cons.inj hcons
      split at h
      · obtain ⟨rfl, rfl⟩ := Prod.mk.inj (Option.some.inj h)
        exact ⟨rfl, [], rfl⟩
      · exact later h
    · next hcons =>
      obtain ⟨rfl, rfl⟩ := List.cons.inj hcons
      exact later h

/-- A group is what stands between its two parentheses. -/
theorem group?_eq_some {s x rest : List Char} (h : group? s = some (x, rest)) :
    s = x ++ rest ∧ x = '(' :: (dropEnds x ++ [')']) := by
  unfold group? at h
  split at h
  · next hopen =>
    obtain ⟨s, rfl⟩ : ∃ s', s = '(' :: s' := by
      cases s with
      | nil => exact nomatch hopen
      | cons c s => exact ⟨s, congrArg (· :: s) (Option.some.inj hopen)⟩
    obtain ⟨⟨y, later⟩, hlater, hx⟩ := Option.map_eq_some_iff.1
      (show (closeGroup .outside 1 s).map (fun p => ('(' :: p.1, p.2)) = some (x, rest) from h)
    obtain ⟨rfl, rfl⟩ := Prod.mk.inj hx
    obtain ⟨rfl, inner, rfl⟩ := closeGroup_eq_some hlater
    refine ⟨rfl, ?_⟩
    unfold dropEnds
    rw [List.tail_cons, List.dropLast_concat]
  · exact nomatch h

/-! ### Plain text -/

/-- A character that neither opens or closes a literal nor escapes anything. -/
def isPlain (c : Char) : Bool :=
  !isQuote c && c != '\\'

/-- A text of plain characters. -/
def Plain (t : List Char) : Prop :=
  ∀ c ∈ t, isPlain c = true

/-- Plain text that is not empty. -/
structure Filler (t : List Char) : Prop where
  plain : Plain t
  ne_nil : t ≠ []

instance (t : List Char) : Decidable (Plain t) :=
  inferInstanceAs (Decidable (∀ c ∈ t, isPlain c = true))

instance (t : List Char) : Decidable (Filler t) :=
  decidable_of_iff (Plain t ∧ t ≠ []) ⟨fun h => ⟨h.1, h.2⟩, fun h => ⟨h.plain, h.ne_nil⟩⟩

theorem Filler.append_plain {t u : List Char} (ht : Filler t) (hu : Plain u) : Filler (t ++ u) :=
  ⟨List.forall_mem_append.2 ⟨ht.plain, hu⟩, by simp [ht.ne_nil]⟩

theorem Filler.plain_append {t u : List Char} (hu : Filler u) (ht : Plain t) : Filler (t ++ u) :=
  ⟨List.forall_mem_append.2 ⟨ht, hu.plain⟩, by simp [hu.ne_nil]⟩

namespace Plain

variable {t u : List Char}

theorem nil : Plain [] := nofun

theorem append (ht : Plain t) (hu : Plain u) : Plain (t ++ u) :=
  List.forall_mem_append.2 ⟨ht, hu⟩

theorem of_isBlank (h : ∀ c ∈ t, isBlank c = true) : Plain t := by
  intro c hc
  have hquote : isQuote c = false := by
    cases hq : isQuote c with
    | false => rfl
    | true => exact absurd (h c hc) (by simp [isBlank_of_isQuote hq])
  have hback : c ≠ '\\' := by
    rintro rfl
    exact absurd (h _ hc) (by decide)
  simp [isPlain, hquote, hback]

end Plain

theorem exists_plain_behind_trimEnd (s : List Char) : ∃ r, s = trimEnd s ++ r ∧ Plain r := by
  refine ⟨(s.reverse.takeWhile isBlank).reverse, ?_, .of_isBlank fun c hc => ?_⟩
  · unfold trimEnd
    rw [← List.reverse_append, List.takeWhile_append_dropWhile, List.reverse_reverse]
  · exact List.all_eq_true.1 List.all_takeWhile c (List.mem_reverse.1 hc)

/-- Trimming a text takes off plain text only. -/
theorem exists_plain_around_trim (s : List Char) :
    ∃ p r, s = p ++ (trim s ++ r) ∧ Plain p ∧ Plain r := by
  obtain ⟨r, hr, hplain⟩ := exists_plain_behind_trimEnd (trimStart s)
  refine ⟨s.takeWhile isBlank, r, ?_, .of_isBlank fun c hc => ?_, hplain⟩
  · exact (List.takeWhile_append_dropWhile.symm).trans (congrArg _ hr)
  · exact List.all_eq_true.1 List.all_takeWhile c hc

/-- A state that a text can lead to: only a quote opens a literal. -/
def Scan.Reached : Scan → Prop
  | .outside => True
  | .inside quote _ => isQuote quote = true

namespace Scan

theorem Reached.next {st : Scan} (h : st.Reached) (c : Char) : (st.next c).Reached := by
  rcases st with _ | ⟨q, _ | _⟩
  · change (if isQuote c then inside c false else outside).Reached
    split
    · next hc => exact hc
    · exact trivial
  · change (if c == '\\' then inside q true else if c == q then outside else inside q false).Reached
    split
    · exact h
    · split
      · exact trivial
      · exact h
  · exact h

theorem Reached.run {st : Scan} (h : st.Reached) (t : List Char) : (st.run t).Reached := by
  induction t generalizing st with
  | nil => exact h
  | cons c t ih => exact ih (h.next c)

/-- The state without an escape under way. -/
def settled : Scan → Scan
  | .outside => .outside
  | .inside quote _ => .inside quote false

theorem settled_eq_outside_iff {st : Scan} : st.settled = .outside ↔ st = .outside := by
  cases st <;> simp [settled]

/-- A plain character does no more than end an escape. -/
theorem Reached.next_plain {st : Scan} (h : st.Reached) {c : Char} (hc : isPlain c = true) :
    st.next c = st.settled := by
  obtain ⟨hquote, hback⟩ : isQuote c = false ∧ c ≠ '\\' := by simpa [isPlain] using hc
  rcases st with _ | ⟨q, _ | _⟩
  · exact next_of_not_quote hquote
  · have hne : c ≠ q := by
      rintro rfl
      exact absurd h (by simp [Reached, hquote])
    simp [Scan.next, settled, hback, hne]
  · rfl

theorem Reached.run_plain {st : Scan} (h : st.Reached) {t : List Char} (ht : Plain t)
    (hne : t ≠ []) : st.run t = st.settled := by
  induction t generalizing st with
  | nil => exact absurd rfl hne
  | cons c t ih =>
    rw [run_cons, h.next_plain (ht c List.mem_cons_self)]
    by_cases hnil : t = []
    · rw [hnil, run_nil]
    · have hsettled : st.settled.Reached := by cases st <;> exact h
      rw [ih hsettled (fun d hd => ht d (List.mem_cons_of_mem c hd)) hnil]
      cases st <;> rfl

/-- Plain text leaves open what is open. -/
theorem Reached.run_plain_eq_outside_iff {st : Scan} (h : st.Reached) {t : List Char}
    (ht : Plain t) : st.run t = .outside ↔ st = .outside := by
  by_cases hnil : t = []
  · rw [hnil, run_nil]
  · rw [h.run_plain ht hnil, settled_eq_outside_iff]

end Scan

/-! ### Texts in plain text -/

/-- A text is plain but for given texts, which stand in it in this order, each behind some plain
text. -/
inductive PlainBut : List String → List Char → Prop where
  | plain {t : List Char} (plain : Plain t) : PlainBut [] t
  | behind {p t : List Char} {x : String} {xs : List String} (filler : Filler p)
      (rest : PlainBut xs t) : PlainBut (x :: xs) (p ++ (x.toList ++ t))

/-- Some texts one after the other, with a blank in front of each. -/
def spread (xs : List String) : List Char :=
  xs.flatMap fun x => ' ' :: x.toList

namespace PlainBut

variable {p t u : List Char} {x : String} {xs ys : List String}

theorem single (hp : Filler p) (x : String) : PlainBut [x] (p ++ x.toList) := by
  have h := behind hp (plain Plain.nil) (x := x)
  rwa [List.append_nil] at h

theorem plain_append (hp : Plain p) (h : PlainBut xs t) : PlainBut xs (p ++ t) := by
  cases h with
  | plain ht => exact plain (hp.append ht)
  | behind hq rest =>
    rw [← List.append_assoc]
    exact behind (hq.plain_append hp) rest

theorem append (ht : PlainBut xs t) (hu : PlainBut ys u) : PlainBut (xs ++ ys) (t ++ u) := by
  induction ht with
  | plain ht => exact hu.plain_append ht
  | behind hp _ ih =>
    rw [List.append_assoc, List.append_assoc, List.cons_append]
    exact behind hp ih

theorem append_plain (h : PlainBut xs t) (hp : Plain p) : PlainBut xs (t ++ p) := by
  have h' := h.append (plain hp)
  rwa [List.append_nil] at h'

/-- A text that is empty does not stand anywhere. -/
theorem of_empty (h : PlainBut ("" :: xs) t) : PlainBut xs t := by
  cases h with
  | behind hp rest => exact rest.plain_append hp.plain

/-- What is trimmed off a text counts to the plain text around it. -/
theorem trim_head (h : PlainBut (x :: xs) t) :
    PlainBut (String.ofList (trim x.toList) :: xs) t := by
  cases h with
  | @behind p t _ _ hp rest =>
    obtain ⟨q, r, hx, hq, hr⟩ := exists_plain_around_trim x.toList
    have htrimmed := behind (hp.append_plain hq) (rest.plain_append hr)
      (x := String.ofList (trim x.toList))
    have htext : p ++ (x.toList ++ t) = p ++ q ++ (trim x.toList ++ (r ++ t)) := calc
      _ = p ++ ((q ++ (trim x.toList ++ r)) ++ t) := by rw [← hx]
      _ = _ := by simp only [List.append_assoc]
    rw [String.toList_ofList] at htrimmed
    rwa [htext]

theorem run_eq_outside_iff {st : Scan} (hst : st.Reached) (h : PlainBut xs t) :
    st.run t = .outside ↔ st.run (spread xs) = .outside := by
  induction h generalizing st with
  | plain ht => exact hst.run_plain_eq_outside_iff ht
  | @behind p t x xs hp _ ih =>
    have hblank : st.next ' ' = st.settled := hst.next_plain (by decide)
    have hspread : spread (x :: xs) = ' ' :: (x.toList ++ spread xs) := rfl
    have hsettled : st.settled.Reached := hblank ▸ hst.next ' '
    rw [hspread, Scan.run_append, Scan.run_append, Scan.run_cons, Scan.run_append,
      hst.run_plain hp.plain hp.ne_nil, hblank]
    exact ih (hsettled.run x.toList)

/-- **A text that is plain but for some texts leaves a literal open exactly if these texts do**, one
after the other. -/
theorem closed_iff (h : PlainBut xs t) : Closed t ↔ Closed (spread xs) :=
  h.run_eq_outside_iff trivial

end PlainBut

end Text

end Tabular
