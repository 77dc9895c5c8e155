import Mathlib.Algebra.Group.Nat.Defs
import Mathlib.Data.List.TakeWhile
import Mathlib.Tactic.Common

/-!
# Backtracking regular expressions

Patterns as the module `re` of Python runs them: an alternative is tried from left to right and a repetition takes as much
as it can first, and the first way to match the whole pattern counts.  A match is what its groups have captured and the
text that is left.
-/

namespace SocRV

/-- A pattern. -/
inductive Regex where
  /-- A literal text. -/
  | lit (t : List Char)
  /-- One character of a class. -/
  | one (p : Char → Bool)
  /-- At least so many characters of a class, as many as possible. -/
  | many (p : Char → Bool) (least : Nat)
  /-- One pattern behind the other. -/
  | seq (r s : Regex)
  /-- The first pattern, or else the second. -/
  | alt (r s : Regex)
  /-- A group, which captures what it matches. -/
  | group (r : Regex)
  /-- `$`: the end of the text, or the line break at its end. -/
  | atEnd

namespace Regex

/-- Patterns behind each other. -/
def seqAll : List Regex → Regex
  | [] => lit []
  | [r] => r
  | r :: rs => seq r (seqAll rs)

/-- What the groups have captured, in order; a group that did not take part has nothing. -/
abbrev Groups := List (Option (List Char))

/-- How many groups a pattern has. -/
def groupCount : Regex → Nat
  | seq r s => r.groupCount + s.groupCount
  | alt r s => r.groupCount + s.groupCount
  | group r => r.groupCount + 1
  | _ => 0

/-- The ways to match a pattern at the beginning of a text, the preferred one first. -/
def matchAt : Regex → List Char → List (Groups × List Char)
  | lit u, t => if u.isPrefixOf t then [([], t.drop u.length)] else []
  | one p, t => match t with
    | [] => []
    | c :: rest => if p c then [([], rest)] else []
  | many p least, t =>
    let most := (t.takeWhile p).length
    (List.range (most + 1 - least)).map fun i => ([], t.drop (most - i))
  | seq r s, t => (r.matchAt t).flatMap fun m => (s.matchAt m.2).map fun n => (m.1 ++ n.1, n.2)
  | alt r s, t =>
    (r.matchAt t).map (fun m => (m.1 ++ List.replicate s.groupCount none, m.2)) ++
      (s.matchAt t).map fun m => (List.replicate r.groupCount none ++ m.1, m.2)
  | group r, t => (r.matchAt t).map fun m => (some (t.take (t.length - m.2.length)) :: m.1, m.2)
  | atEnd, t => if t = [] ∨ t = ['\n'] then [([], t)] else []

theorem lit_matchAt (u t : List Char) : (lit u).matchAt t = if u.isPrefixOf t then [([], t.drop u.length)] else [] := rfl

theorem many_matchAt (p : Char → Bool) (least : Nat) (t : List Char) :
    (many p least).matchAt t =
      (List.range ((t.takeWhile p).length + 1 - least)).map fun i => ([], t.drop ((t.takeWhile p).length - i)) := rfl

/-- Patterns in a row: every way of the second behind every way of the first. -/
theorem seq_matchAt (r s : Regex) (t : List Char) :
    (seq r s).matchAt t = (r.matchAt t).flatMap fun m => (s.matchAt m.2).map fun n => (m.1 ++ n.1, n.2) := rfl

/-- A choice: the ways of the first pattern, then those of the second. -/
theorem alt_matchAt (r s : Regex) (t : List Char) :
    (alt r s).matchAt t =
      (r.matchAt t).map (fun m => (m.1 ++ List.replicate s.groupCount none, m.2)) ++
        (s.matchAt t).map fun m => (List.replicate r.groupCount none ++ m.1, m.2) := rfl

/-- A group captures what its pattern has read. -/
theorem group_matchAt (r : Regex) (t : List Char) :
    (group r).matchAt t = (r.matchAt t).map fun m => (some (t.take (t.length - m.2.length)) :: m.1, m.2) := rfl

/-- `match`: the preferred match at the beginning of a text. -/
def first (r : Regex) (t : List Char) : Option (Groups × List Char) := (r.matchAt t).head?

/-- `search`: the groups of the first match in a text. -/
def search (r : Regex) : List Char → Option Groups
  | [] => (r.first []).map Prod.fst
  | c :: t => match r.first (c :: t) with
    | some m => some m.1
    | none => r.search t

/-- `findall` behind the next `skip` characters, for a pattern that does not match the empty text. -/
def findallFrom (r : Regex) : Nat → List Char → List Groups
  | _, [] => []
  | skip + 1, _ :: t => r.findallFrom skip t
  | 0, c :: t => match r.first (c :: t) with
    | some m => m.1 :: r.findallFrom (t.length - m.2.length) t
    | none => r.findallFrom 0 t

/-- `findall`: the groups of the matches in a text, each behind the one before. -/
def findall (r : Regex) (t : List Char) : List Groups := r.findallFrom 0 t

/-! ## The preferred match -/

section First

variable {r s : Regex} {p : Char → Bool} {least : Nat} {t u v x y : List Char} {g : Groups}

/-- The preferred match of a sequence goes on from the first match of its beginning that can be completed. -/
theorem first_seq (r s : Regex) (t : List Char) :
    (seq r s).first t = (r.matchAt t).findSome? fun m => (s.first m.2).map fun n => (m.1 ++ n.1, n.2) := by
  rw [first, seq_matchAt, List.head?_flatMap]
  simp only [List.head?_map, first]

/-- A sequence whose beginning matches in one way. -/
theorem first_seq_of_matchAt (h : r.matchAt t = [(g, u)]) :
    (seq r s).first t = (s.first u).map fun n => (g ++ n.1, n.2) := by
  rw [first_seq, h, List.findSome?_singleton]

/-- A literal matches itself in one way. -/
theorem matchAt_lit (u t : List Char) : (lit u).matchAt (u ++ t) = [([], t)] := by
  rw [lit_matchAt, if_pos (List.isPrefixOf_iff_prefix.mpr (List.prefix_append ..)), List.drop_left]

/-- A literal text in front of a pattern is read over. -/
theorem first_lit_seq (u t : List Char) (s : Regex) : (seq (lit u) s).first (u ++ t) = s.first t := by
  rw [first_seq_of_matchAt (matchAt_lit u t)]
  simp only [List.nil_append, Option.map_id']

/-- A pattern that starts with a literal does not match where the text starts otherwise. -/
theorem first_lit_seq_of_mismatch (h : u.isPrefixOf t = false) : (seq (lit u) s).first t = none := by
  rw [first_seq, lit_matchAt, h, if_neg (by decide), List.findSome?_nil]

/-- The text does not go on with a character of the class. -/
def Stops (p : Char → Bool) (t : List Char) : Prop := ∀ c ∈ t.head?, p c = false

theorem stops_cons {c : Char} (h : p c = false) : Stops p (c :: t) := by
  intro d hd
  rw [← Option.some.inj hd]
  exact h

theorem stops_append (h : (u.head?.any fun c => !p c) = true) (t : List Char) : Stops p (u ++ t) := by
  cases u with
  | nil => cases h
  | cons c u =>
    refine stops_cons ?_
    rw [List.head?_cons, Option.any_some, Bool.not_eq_true'] at h
    exact h

/-- The run that a repetition can take ends where the class ends. -/
theorem takeWhile_run (hx : ∀ c ∈ x, p c = true) (ht : Stops p t) : (x ++ t).takeWhile p = x := by
  rw [List.takeWhile_append_of_pos hx]
  cases t with
  | nil => rw [List.takeWhile_nil, List.append_nil]
  | cons c t => rw [List.takeWhile_cons, ht c rfl, if_neg (by decide), List.append_nil]

/-- The first success in a row of attempts. -/
theorem findSome?_range {β : Type} {f : Nat → Option β} {b : β} {k n : Nat} (hk : k < n) (hf : f k = some b)
    (hnone : ∀ i < k, f i = none) : (List.range n).findSome? f = some b := by
  obtain ⟨m, rfl⟩ := Nat.exists_eq_add_of_lt hk
  have hfail : (List.range k).findSome? f = none :=
    List.findSome?_eq_none_iff.mpr fun i hi => hnone i (List.mem_range.mp hi)
  rw [Nat.add_assoc, List.range_add, List.findSome?_append, hfail, Option.none_or, Nat.add_comm m 1, List.range_add,
    List.map_append, List.findSome?_append]
  simp only [List.range_one, List.map_cons, List.map_nil, Nat.add_zero, List.findSome?_singleton, hf, Option.some_or]

/-- Attempts on a repetition that has to give back `y` of its run before one succeeds. -/
theorem findSome?_many {β : Type} {f : Groups × List Char → Option β} {n : β} (hx : ∀ c ∈ x, p c = true)
    (hy : ∀ c ∈ y, p c = true) (ht : Stops p t) (hleast : least ≤ x.length)
    (hf : f ([], y ++ t) = some n) (hnone : ∀ a b, y = a ++ b → a ≠ [] → f ([], b ++ t) = none) :
    ((many p least).matchAt (x ++ (y ++ t))).findSome? f = some n := by
  have hxy : ∀ c ∈ x ++ y, p c = true := by
    intro c hc
    rcases List.mem_append.mp hc with hc | hc
    · exact hx c hc
    · exact hy c hc
  have hrun : (x ++ (y ++ t)).takeWhile p = x ++ y := by
    rw [← List.append_assoc, takeWhile_run hxy ht]
  have hrest : ∀ i ≤ y.length, (x ++ (y ++ t)).drop ((x ++ y).length - i) = y.drop (y.length - i) ++ t := by
    intro i hi
    rw [List.length_append, Nat.add_sub_assoc hi, List.drop_append, List.drop_eq_nil_of_le (by omega),
      Nat.add_sub_cancel_left, List.nil_append, List.drop_append_of_le_length (by omega)]
  have hlen : (x ++ y).length = x.length + y.length := List.length_append
  rw [many_matchAt, hrun, List.findSome?_map]
  refine findSome?_range (k := y.length) (by omega) ?_ fun i hi => ?_
  · rw [Function.comp_apply, hrest _ (Nat.le_refl _), Nat.sub_self, List.drop_zero, hf]
  · have ha : y.take (y.length - i) ≠ [] := by
      intro hnil
      have hzero := congrArg List.length hnil
      rw [List.length_take, List.length_nil] at hzero
      omega
    rw [Function.comp_apply, hrest i (by omega), hnone _ _ (List.take_append_drop _ y).symm ha]

/-- A repetition that takes its whole run. -/
theorem first_many_seq {n : Groups × List Char} (hx : ∀ c ∈ x, p c = true) (ht : Stops p t)
    (hleast : least ≤ x.length) (hs : s.first t = some n) : (seq (many p least) s).first (x ++ t) = some n := by
  rw [first_seq]
  refine findSome?_many (y := []) hx (by simp) ht hleast ?_ fun a b hab ha => ?_
  · rw [List.nil_append, hs]
    rfl
  · exact absurd (List.append_eq_nil_iff.mp hab.symm).1 ha

/-- A captured repetition that has to give back `y` of its run before the rest can match. -/
theorem first_group_many_seq {n : Groups × List Char} (hx : ∀ c ∈ x, p c = true) (hy : ∀ c ∈ y, p c = true)
    (ht : Stops p t) (hleast : least ≤ x.length) (hs : s.first (y ++ t) = some n)
    (hnone : ∀ a b, y = a ++ b → a ≠ [] → s.first (b ++ t) = none) :
    (seq (group (many p least)) s).first (x ++ (y ++ t)) = some (some x :: n.1, n.2) := by
  rw [first_seq, group_matchAt, List.findSome?_map]
  refine findSome?_many hx hy ht hleast ?_ fun a b hab ha => ?_
  · rw [Function.comp_apply]
    dsimp only
    rw [hs, List.length_append, Nat.add_sub_cancel, List.take_left]
    rfl
  · rw [Function.comp_apply]
    dsimp only
    rw [hnone a b hab ha]
    rfl

/-- A repetition before a rest that matches nowhere in its run or behind it. -/
theorem first_group_many_seq_none (hx : ∀ c ∈ x, p c = true) (ht : Stops p t)
    (hnone : ∀ i ≤ x.length, s.first (x.drop i ++ t) = none) : (seq (group (many p least)) s).first (x ++ t) = none := by
  rw [first_seq, group_matchAt, List.findSome?_map, many_matchAt, List.findSome?_map, takeWhile_run hx ht,
    List.findSome?_eq_none_iff]
  intro i _
  simp only [Function.comp_apply]
  rw [List.drop_append_of_le_length (Nat.sub_le ..), hnone _ (Nat.sub_le ..)]
  rfl

/-- A captured repetition at the end of a pattern takes its whole run. -/
theorem first_group_many (hx : ∀ c ∈ x, p c = true) (ht : Stops p t) (hleast : least ≤ x.length) :
    (group (many p least)).first (x ++ t) = some ([some x], t) := by
  have hfirst : ((many p least).matchAt (x ++ t)).findSome? some = some ([], t) := by
    refine findSome?_many (y := []) hx (by simp) ht hleast rfl fun a b hab ha => ?_
    exact absurd (List.append_eq_nil_iff.mp hab.symm).1 ha
  have hhead : ((many p least).matchAt (x ++ t)).head? = some ([], t) := by
    rw [← hfirst]
    cases (many p least).matchAt (x ++ t) with
    | nil => rfl
    | cons m ms => rfl
  rw [first, group_matchAt, List.head?_map, hhead, Option.map_some, List.length_append, Nat.add_sub_cancel, List.take_left]

end First

/-! ## All matches -/

theorem findallFrom_append (r : Regex) (x t : List Char) : r.findallFrom x.length (x ++ t) = r.findall t := by
  induction x with
  | nil => rfl
  | cons c x ih => exact ih

/-- A match in front is found, and the search goes on behind it. -/
theorem findall_of_first {r : Regex} {x t : List Char} {g : Groups} (hx : x ≠ []) (h : r.first (x ++ t) = some (g, t)) :
    r.findall (x ++ t) = g :: r.findall t := by
  cases x with
  | nil => exact absurd rfl hx
  | cons c x =>
    rw [List.cons_append] at h
    rw [List.cons_append, findall, findallFrom, h]
    dsimp only
    rw [List.length_append, Nat.add_sub_cancel, findallFrom_append]

/-- Where there is no match the search goes on with the next character. -/
theorem findall_cons_of_none {r : Regex} {c : Char} {t : List Char} (h : r.first (c :: t) = none) :
    r.findall (c :: t) = r.findall t := by
  rw [findall, findallFrom, h, ← findall]

/-- A text without the first character of a pattern is passed over. -/
theorem findall_skip {c : Char} {u x : List Char} {s : Regex} (t : List Char) (hx : c ∉ x) :
    (seq (lit (c :: u)) s).findall (x ++ t) = (seq (lit (c :: u)) s).findall t := by
  induction x with
  | nil => rfl
  | cons d x ih =>
    have hne : c ≠ d := fun h => hx (h ▸ List.mem_cons_self ..)
    have hnot : (c :: u).isPrefixOf (d :: (x ++ t)) = false := by
      rw [List.isPrefixOf, beq_eq_false_iff_ne.mpr hne, Bool.false_and]
    rw [List.cons_append, findall_cons_of_none (first_lit_seq_of_mismatch hnot)]
    exact ih fun h => hx (List.mem_cons_of_mem _ h)

/-- What is found are matches at some places of the text. -/
theorem mem_findallFrom {r : Regex} {g : Groups} {k : Nat} {t : List Char} (h : g ∈ r.findallFrom k t) :
    ∃ u v, (g, v) ∈ r.matchAt u := by
  induction t generalizing k with
  | nil =>
    rw [findallFrom] at h
    cases h
  | cons c t ih =>
    cases k with
    | succ k => exact ih h
    | zero =>
      rw [findallFrom] at h
      cases hf : r.first (c :: t) with
      | none =>
        rw [hf] at h
        exact ih h
      | some m =>
        rw [hf, List.mem_cons] at h
        rcases h with rfl | h
        · exact ⟨_, _, List.mem_of_head? hf⟩
        · exact ih h

/-! ## What a match reads -/

/-- The pattern reads only characters of a class. -/
def ReadsOnly (q : Char → Bool) (r : Regex) : Prop :=
  ∀ t, ∀ m ∈ r.matchAt t, ∃ x, t = x ++ m.2 ∧ ∀ c ∈ x, q c = true

section Reads

variable {r s : Regex} {p q : Char → Bool} {least : Nat} {t u : List Char} {m : Groups × List Char}

/-- A match of two patterns in a row is one of the first and one of the second behind it. -/
theorem mem_matchAt_seq (h : m ∈ (seq r s).matchAt t) :
    ∃ a ∈ r.matchAt t, ∃ b ∈ s.matchAt a.2, m.1 = a.1 ++ b.1 := by
  rw [seq_matchAt, List.mem_flatMap] at h
  obtain ⟨a, ha, h⟩ := h
  obtain ⟨b, hb, rfl⟩ := List.mem_map.mp h
  exact ⟨a, ha, b, hb, rfl⟩

/-- A match of a literal captures nothing and reads just that literal. -/
theorem mem_matchAt_lit (h : m ∈ (lit u).matchAt t) : m.1 = [] ∧ t = u ++ m.2 := by
  rw [lit_matchAt] at h
  split_ifs at h with hu
  · cases List.mem_singleton.mp h
    obtain ⟨v, rfl⟩ := List.isPrefixOf_iff_prefix.mp hu
    rw [List.drop_left]
    exact ⟨rfl, rfl⟩
  · cases h

/-- A match of a run of characters captures nothing and reads a part of the run. -/
theorem mem_matchAt_many (h : m ∈ (many p least).matchAt t) : m.1 = [] ∧ ∃ n ≤ (t.takeWhile p).length, m.2 = t.drop n := by
  rw [many_matchAt] at h
  obtain ⟨i, -, rfl⟩ := List.mem_map.mp h
  exact ⟨rfl, _, Nat.sub_le .., rfl⟩

/-- A literal of characters of a class reads only that class. -/
theorem readsOnly_lit (hu : ∀ c ∈ u, q c = true) : ReadsOnly q (lit u) :=
  fun _ _ hm => ⟨u, (mem_matchAt_lit hm).2, hu⟩

/-- A run of a smaller class reads only the larger one. -/
theorem readsOnly_many (hp : ∀ c, p c = true → q c = true) : ReadsOnly q (many p least) := by
  intro t m hm
  obtain ⟨-, n, hn, hrest⟩ := mem_matchAt_many hm
  refine ⟨t.take n, ?_, fun c hc => hp c ?_⟩
  · rw [hrest, List.take_append_drop]
  · have htake : t.take n = (t.takeWhile p).take n := by
      conv_lhs => rw [← List.takeWhile_append_dropWhile (p := p) (l := t)]
      exact List.take_append_of_le_length hn
    rw [htake] at hc
    exact List.mem_takeWhile_imp (List.mem_of_mem_take hc)

/-- A choice of patterns that read only a class does so too. -/
theorem readsOnly_alt (hr : ReadsOnly q r) (hs : ReadsOnly q s) : ReadsOnly q (alt r s) := by
  intro t m hm
  rw [alt_matchAt, List.mem_append, List.mem_map, List.mem_map] at hm
  rcases hm with ⟨n, hn, rfl⟩ | ⟨n, hn, rfl⟩
  · exact hr t n hn
  · exact hs t n hn

/-- The pattern has no groups that capture. -/
def Silent (r : Regex) : Prop := ∀ t, ∀ m ∈ r.matchAt t, m.1 = []

/-- A literal captures nothing. -/
theorem silent_lit (u : List Char) : Silent (lit u) := fun _ _ hm => (mem_matchAt_lit hm).1

theorem silent_many (p : Char → Bool) (least : Nat) : Silent (many p least) := fun _ _ hm => (mem_matchAt_many hm).1

theorem silent_alt_lit (u v : List Char) : Silent (alt (lit u) (lit v)) := by
  intro t m hm
  rw [alt_matchAt, List.mem_append, List.mem_map, List.mem_map] at hm
  rcases hm with ⟨n, hn, rfl⟩ | ⟨n, hn, rfl⟩
  · rw [silent_lit u t n hn]
    rfl
  · rw [silent_lit v t n hn]
    rfl

/-- Behind a pattern without groups the rest captures. -/
theorem mem_seq_silent (hr : Silent r) (h : m ∈ (seq r s).matchAt t) : ∃ v, ∃ b ∈ s.matchAt v, m.1 = b.1 := by
  obtain ⟨a, ha, b, hb, hm⟩ := mem_matchAt_seq h
  refine ⟨_, b, hb, ?_⟩
  rw [hm, hr t a ha, List.nil_append]

/-- A group captures characters of the class, and the rest captures behind it. -/
theorem mem_seq_group (hr : Silent r) (hq : ReadsOnly q r) (h : m ∈ (seq (group r) s).matchAt t) :
    ∃ x v, (∀ c ∈ x, q c = true) ∧ ∃ b ∈ s.matchAt v, m.1 = some x :: b.1 := by
  obtain ⟨a, ha, b, hb, hm⟩ := mem_matchAt_seq h
  rw [group_matchAt] at ha
  obtain ⟨n, hn, rfl⟩ := List.mem_map.mp ha
  obtain ⟨x, hx, hread⟩ := hq t n hn
  refine ⟨x, _, hread, b, hb, ?_⟩
  rw [hm, hr t n hn, hx, List.length_append, Nat.add_sub_cancel, List.take_left]
  rfl

end Reads

end Regex

end SocRV
