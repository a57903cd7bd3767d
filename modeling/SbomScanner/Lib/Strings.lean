import Mathlib.Algebra.Group.Int.Defs
import Mathlib.Algebra.Group.Nat.Defs
import Mathlib.Data.List.Basic

/-!
# The Go string functions, over Lean strings

`strings.Split`, `strings.Cut`, `strings.TrimPrefix`, `strings.CutPrefix`, `strings.Join`, the
decimal conversions of `strconv`, `path.Join` and `hex.EncodeToString`, as far as a program that
cuts slash-separated keys and passes numbers around as text needs them.

Everything reduces to lists of characters: a `String` is entered through `toList` and left through
`ofList`, so that the facts about splitting come from `List.splitOn` and the facts about numbers
from `Nat.toDigits`.
-/

namespace Strings

open List

/-! ## Splitting and joining -/

/-- `strings.Split(s, sep)` for a one-character separator. -/
def split (s : String) (sep : Char) : List String :=
  (s.toList.splitOn sep).map String.ofList

/-- `strings.Join(parts, sep)`; also what `fmt.Sprintf("%s/%s/…")` computes. -/
def join (parts : List String) (sep : Char) : String :=
  String.ofList ([sep].intercalate (parts.map String.toList))

/-- `strings.Cut(s, sep)` for a one-character separator: what comes before and after the first one,
if there is one. -/
def cut (s : String) (sep : Char) : Option (String × String) :=
  match s.toList.dropWhile (· ≠ sep) with
  | [] => none
  | _ :: rest => some (String.ofList (s.toList.takeWhile (· ≠ sep)), String.ofList rest)

/-- `strings.TrimPrefix(s, p)` for a one-character prefix. -/
def trimPrefix (s : String) (p : Char) : String :=
  match s.toList with
  | c :: cs => if c = p then String.ofList cs else s
  | [] => s

/-- `strings.CutPrefix(s, p)`: what follows the prefix, if `s` starts with it. -/
def cutPrefix (s p : String) : Option String :=
  if p.toList <+: s.toList then some (String.ofList (s.toList.drop p.toList.length)) else none

variable {s : String}

theorem cutPrefix_eq_some {p rest : String} : cutPrefix s p = some rest ↔ s = p ++ rest := by
  unfold cutPrefix
  split
  case isTrue h =>
    obtain ⟨tail, htail⟩ := h
    have hs : s = p ++ String.ofList tail := by
      rw [← String.toList_inj, String.toList_append, String.toList_ofList, htail]
    rw [← htail, drop_left, Option.some.injEq, hs, String.append_right_inj]
  case isFalse h =>
    constructor
    · intro hnone
      cases hnone
    · rintro rfl
      exact absurd ⟨rest.toList, String.toList_append.symm⟩ h

/-- Two texts that are put together around a character are told apart at the first one. -/
theorem append_cons_inj {a b c d : List Char} {x : Char} (ha : x ∉ a) (hc : x ∉ c)
    (h : a ++ x :: b = c ++ x :: d) : a = c ∧ b = d := by
  induction a generalizing c with
  | nil =>
    cases c with
    | nil => exact ⟨rfl, (List.cons.inj h).2⟩
    | cons y c => exact absurd (List.cons.inj h).1 fun heq => hc (heq ▸ mem_cons_self)
  | cons y a ih =>
    cases c with
    | nil => exact absurd (List.cons.inj h).1 fun heq => ha (heq ▸ mem_cons_self)
    | cons z c =>
      obtain ⟨rfl, htail⟩ := List.cons.inj h
      obtain ⟨rfl, rfl⟩ := ih (fun hmem => ha (mem_cons_of_mem _ hmem))
        (fun hmem => hc (mem_cons_of_mem _ hmem)) htail
      exact ⟨rfl, rfl⟩

/-- … or at the last one. -/
theorem append_cons_inj_right {a b c d : List Char} {x : Char} (hb : x ∉ b) (hd : x ∉ d)
    (h : a ++ x :: b = c ++ x :: d) : a = c ∧ b = d := by
  have hreverse := congrArg List.reverse h
  simp only [reverse_append, reverse_cons, append_assoc, singleton_append] at hreverse
  obtain ⟨hbd, hac⟩ := append_cons_inj (by simpa using hb) (by simpa using hd) hreverse
  exact ⟨reverse_injective hac, reverse_injective hbd⟩

/-- A text that is cut at two characters is cut at the same place, or one of the parts in front goes
on behind the other one. -/
theorem append_cases {a b c d : String} {x y : Char}
    (h : a ++ String.singleton x ++ b = c ++ String.singleton y ++ d) :
    a = c ∧ x = y ∧ b = d ∨
      (∃ r, c = a ++ String.singleton x ++ r ∧ b = r ++ String.singleton y ++ d) ∨
      ∃ r, a = c ++ String.singleton y ++ r ∧ d = r ++ String.singleton x ++ b := by
  simp only [← String.toList_inj, String.toList_append, String.toList_singleton,
    append_assoc, singleton_append] at h ⊢
  rcases append_eq_append_iff.mp h with ⟨r, hc, hb⟩ | ⟨r, ha, hd⟩
  · cases r with
    | nil =>
      obtain ⟨hxy, hbd⟩ := List.cons.inj hb
      exact .inl ⟨by simpa using hc.symm, hxy, hbd⟩
    | cons z r =>
      obtain ⟨rfl, hbd⟩ := List.cons.inj hb
      exact .inr (.inl ⟨String.ofList r, by simpa using hc, by simpa using hbd⟩)
  · cases r with
    | nil =>
      obtain ⟨hyx, hdb⟩ := List.cons.inj hd
      exact .inl ⟨by simpa using ha, hyx.symm, hdb.symm⟩
    | cons z r =>
      obtain ⟨rfl, hdb⟩ := List.cons.inj hd
      exact .inr (.inr ⟨String.ofList r, by simpa using ha, by simpa using hdb⟩)

variable {sep : Char} {parts : List String}

/-- Splitting undoes joining when no part contains the separator. -/
theorem split_join (hne : parts ≠ []) (hsep : ∀ p ∈ parts, sep ∉ p.toList) :
    split (join parts sep) sep = parts := by
  unfold split join
  rw [String.toList_ofList, splitOn_intercalate]
  · rw [map_map]
    have hid : String.ofList ∘ String.toList = id := by
      funext s
      exact String.ofList_toList
    rw [hid, map_id]
  · intro l hl
    obtain ⟨p, hp, rfl⟩ := mem_map.mp hl
    exact hsep p hp
  · simpa using hne

/-- Joining undoes splitting. -/
theorem join_split (s : String) (sep : Char) : join (split s sep) sep = s := by
  unfold split join
  have hid : String.toList ∘ String.ofList = id := by
    funext cs
    exact String.toList_ofList
  rw [map_map, hid, map_id, intercalate_splitOn, String.ofList_toList]

theorem split_ne_nil (s : String) (sep : Char) : split s sep ≠ [] := by
  unfold split
  rw [ne_eq, map_eq_nil_iff]
  exact splitOn_ne_nil _ _

theorem join_singleton (part : String) (sep : Char) : join [part] sep = part := by
  simp [join]

theorem join_cons (part : String) (sep : Char) (h : parts ≠ []) :
    join (part :: parts) sep = part ++ String.singleton sep ++ join parts sep := by
  obtain ⟨q, qs, rfl⟩ := exists_cons_of_ne_nil h
  rw [← String.toList_inj]
  simp [join, intercalate_cons_cons]

theorem join_concat (part : String) (sep : Char) (h : parts ≠ []) :
    join (parts ++ [part]) sep = join parts sep ++ String.singleton sep ++ part := by
  have hsingle : ∀ p, join [p] sep = p := by
    intro p
    simp [join]
  induction parts with
  | nil => exact absurd rfl h
  | cons first rest ih =>
    rw [cons_append, join_cons first sep (by simp)]
    by_cases hrest : rest = []
    · rw [hrest, nil_append, hsingle, hsingle]
    · rw [ih hrest, join_cons first sep hrest]
      simp only [String.append_assoc]

theorem not_mem_of_mem_splitOn {text part : List Char} (h : part ∈ text.splitOn sep) :
    sep ∉ part := by
  induction text generalizing part with
  | nil =>
    rw [splitOn_nil, mem_singleton] at h
    exact h ▸ not_mem_nil
  | cons c text ih =>
    rw [splitOn_cons_eq_if_modifyHead] at h
    split at h
    case isTrue =>
      rcases mem_cons.mp h with rfl | hmem
      · exact not_mem_nil
      · exact ih hmem
    case isFalse hne =>
      obtain ⟨first, rest, hsplit⟩ := exists_cons_of_ne_nil (splitOn_ne_nil sep text)
      rw [hsplit] at h ih
      rcases mem_cons.mp h with rfl | hmem
      · have hc : sep ≠ c := fun heq => hne (by simp [heq])
        exact not_mem_cons_of_ne_of_not_mem hc (ih mem_cons_self)
      · exact ih (mem_cons_of_mem first hmem)

/-- The separators are where the text is split. -/
theorem not_mem_of_mem_split {part : String} (h : part ∈ split s sep) :
    sep ∉ part.toList := by
  obtain ⟨cs, hcs, rfl⟩ := mem_map.mp h
  rw [String.toList_ofList]
  exact not_mem_of_mem_splitOn hcs

/-- What is not in one of the parts is a separator. -/
theorem mem_or_eq_sep {c : Char} (h : c ∈ s.toList) (sep : Char) :
    c = sep ∨ ∃ part ∈ split s sep, c ∈ part.toList := by
  rw [← join_split s sep, join, String.toList_ofList] at h
  generalize split s sep = parts at h
  induction parts with
  | nil => cases h
  | cons part rest ih =>
    cases rest with
    | nil => exact .inr ⟨part, mem_singleton_self part, by simpa using h⟩
    | cons next rest =>
      rw [map_cons, map_cons, intercalate_cons_cons, mem_append, mem_append, mem_singleton] at h
      rcases h with (hpart | hsep) | hrest
      · exact .inr ⟨part, mem_cons_self, hpart⟩
      · exact .inl hsep
      · rcases ih hrest with hsep | ⟨other, hother, hin⟩
        · exact .inl hsep
        · exact .inr ⟨other, mem_cons_of_mem part hother, hin⟩

theorem split_of_not_mem (h : sep ∉ s.toList) : split s sep = [s] := by
  rw [split, splitOn_eq_singleton h, map_singleton, String.ofList_toList]

theorem split_append (a b : String) (sep : Char) :
    split (a ++ String.singleton sep ++ b) sep = split a sep ++ split b sep := by
  unfold split
  rw [String.toList_append, String.toList_append, String.toList_singleton, append_assoc,
    singleton_append, splitOn_append_cons_self, map_append]

theorem cut_append {a b : String} (ha : sep ∉ a.toList) :
    cut (a ++ String.singleton sep ++ b) sep = some (a, b) := by
  have hne : ∀ c ∈ a.toList, decide (c ≠ sep) = true := by
    intro c hc
    exact decide_eq_true fun heq => ha (heq ▸ hc)
  have htext : (a ++ String.singleton sep ++ b).toList = a.toList ++ sep :: b.toList := by simp
  rw [cut, htext, dropWhile_append_of_pos hne, takeWhile_append_of_pos hne]
  simp

theorem cut_eq_some {a b : String} (h : cut s sep = some (a, b)) :
    sep ∉ a.toList ∧ s = a ++ String.singleton sep ++ b := by
  unfold cut at h
  split at h
  case h_1 => cases h
  case h_2 c rest hdrop =>
    cases h
    have hc : c = sep := by
      have hhead := List.head?_dropWhile_not (fun c => decide (c ≠ sep)) s.toList
      rw [hdrop] at hhead
      simpa using hhead
    constructor
    · rw [String.toList_ofList]
      intro hmem
      simpa using all_eq_true.mp all_takeWhile sep hmem
    · rw [← String.toList_inj]
      simp only [String.toList_append, String.toList_ofList, String.toList_singleton,
        append_assoc, singleton_append]
      subst hc
      rw [← hdrop, takeWhile_append_dropWhile]

theorem cut_eq_none (h : cut s sep = none) : sep ∉ s.toList := by
  unfold cut at h
  split at h
  case h_2 => cases h
  case h_1 hdrop =>
    intro hmem
    rw [← takeWhile_append_dropWhile (p := fun c => decide (c ≠ sep)) (l := s.toList), hdrop,
      append_nil] at hmem
    simpa using all_eq_true.mp all_takeWhile sep hmem

theorem trimPrefix_cons (s : String) (p : Char) :
    trimPrefix (String.ofList (p :: s.toList)) p = s := by
  simp [trimPrefix]

/-- A joined list whose first part is non-empty does not start with the separator. -/
theorem trimPrefix_join {part : String}
    (hne : part ≠ "") (hsep : sep ∉ part.toList) :
    trimPrefix (join (part :: parts) sep) sep = join (part :: parts) sep := by
  cases hl : part.toList with
  | nil =>
    have : part = "" := by
      rw [← String.ofList_toList (s := part), hl]
    exact absurd this hne
  | cons c cs =>
    have hc : c ≠ sep := by
      intro h
      apply hsep
      rw [hl, h]
      exact mem_cons_self
    -- the first character of the joined text is the first character of the first part
    have hj : ∃ rest, (join (part :: parts) sep).toList = c :: rest := by
      unfold join
      rw [String.toList_ofList, map_cons, hl]
      cases parts with
      | nil => exact ⟨cs, by simp⟩
      | cons q qs =>
        refine ⟨cs ++ sep :: [sep].intercalate (q.toList :: qs.map String.toList), ?_⟩
        simp [intercalate_cons_cons]
    obtain ⟨rest, hrest⟩ := hj
    unfold trimPrefix
    rw [hrest]
    simp [hc]

/-! ## Decimal numbers -/

/-- `strconv.ParseUint(s, 10, bits)`: a non-empty run of digits whose value fits. -/
def parseUint (s : String) (bits : Nat) : Option Nat :=
  if s.toList ≠ [] ∧ s.toList.all Char.isDigit then
    let n := Nat.ofDigitChars 10 s.toList 0
    if n < 2 ^ bits then some n else none
  else none

/-- `strconv.ParseInt(s, 10, bits)`: an optional sign, then digits, in two's-complement range. -/
def parseInt (s : String) (bits : Nat) : Option Int :=
  match s.toList with
  | '-' :: cs =>
    (parseUint (String.ofList cs) bits).bind fun n =>
      if n ≤ 2 ^ (bits - 1) then some (-(n : Int)) else none
  | '+' :: cs =>
    (parseUint (String.ofList cs) bits).bind fun n =>
      if n < 2 ^ (bits - 1) then some (n : Int) else none
  | cs =>
    (parseUint (String.ofList cs) bits).bind fun n =>
      if n < 2 ^ (bits - 1) then some (n : Int) else none

/-- `strconv.FormatUint(n, 10)`. -/
def formatUint (n : Nat) : String := String.ofList (Nat.toDigits 10 n)

/-- `strconv.FormatInt(n, 10)`. -/
def formatInt (n : Int) : String :=
  if n < 0 then "-" ++ formatUint n.natAbs else formatUint n.natAbs

theorem parseUint_formatUint {n bits : Nat} (h : n < 2 ^ bits) :
    parseUint (formatUint n) bits = some n := by
  have hdigits : (Nat.toDigits 10 n).all Char.isDigit = true := by
    rw [all_eq_true]
    intro c hc
    exact Nat.isDigit_of_mem_toDigits (by decide) (by decide) hc
  unfold parseUint formatUint
  rw [String.toList_ofList, if_pos ⟨Nat.toDigits_ne_nil, hdigits⟩, Nat.ofDigitChars_ten_toDigits]
  simp only [if_pos h]

theorem formatUint_ne_empty (n : Nat) : formatUint n ≠ "" := by
  intro h
  apply Nat.toDigits_ne_nil (n := n) (b := 10)
  rw [← String.toList_ofList (l := Nat.toDigits 10 n)]
  exact congrArg String.toList h

theorem formatInt_ne_empty (n : Int) : formatInt n ≠ "" := by
  unfold formatInt
  split
  · intro h
    have := congrArg String.toList h
    rw [String.toList_append] at this
    cases this
  · exact formatUint_ne_empty _

theorem two_pow_lt_succ (bits : Nat) : 2 ^ bits < 2 ^ (bits + 1) :=
  Nat.pow_lt_pow_right (by decide) (Nat.lt_succ_self bits)

/-- Without a sign, the digits are all there is to read. -/
theorem parseInt_formatUint {n bits : Nat} (h : n < 2 ^ bits) :
    parseInt (formatUint n) (bits + 1) = some (n : Int) := by
  have hparse : parseUint (formatUint n) (bits + 1) = some n :=
    parseUint_formatUint (Nat.lt_trans h (two_pow_lt_succ bits))
  obtain ⟨c, cs, hcs⟩ := exists_cons_of_ne_nil (Nat.toDigits_ne_nil (n := n) (b := 10))
  have hlist : (formatUint n).toList = c :: cs := by
    rw [formatUint, String.toList_ofList, hcs]
  have hdigit : c.isDigit = true :=
    Nat.isDigit_of_mem_toDigits (by decide) (by decide) (hcs ▸ mem_cons_self)
  have hofList : String.ofList (c :: cs) = formatUint n := by
    rw [← hlist, String.ofList_toList]
  unfold parseInt
  rw [hlist]
  split
  case h_1 heq =>
    cases heq
    exact absurd hdigit (by decide)
  case h_2 heq =>
    cases heq
    exact absurd hdigit (by decide)
  case h_3 =>
    rw [hofList, hparse, Option.bind_some, Nat.add_sub_cancel, if_pos h]

/-- A number that is in range is read back as it was written. -/
theorem parseInt_formatInt {n : Int} {bits : Nat} (hlow : -(2 ^ bits : Int) ≤ n)
    (hhigh : n < 2 ^ bits) : parseInt (formatInt n) (bits + 1) = some n := by
  have hpow : ((2 ^ bits : Nat) : Int) = (2 ^ bits : Int) := by push_cast; rfl
  unfold formatInt
  split
  case isTrue hneg =>
    have habs : n.natAbs ≤ 2 ^ bits := by omega
    have hparse : parseUint (formatUint n.natAbs) (bits + 1) = some n.natAbs :=
      parseUint_formatUint (Nat.lt_of_le_of_lt habs (two_pow_lt_succ bits))
    have hlist : ("-" ++ formatUint n.natAbs).toList = '-' :: (formatUint n.natAbs).toList := by
      rw [String.toList_append]
      rfl
    unfold parseInt
    rw [hlist]
    simp only [String.ofList_toList, hparse, Option.bind_some, Nat.add_sub_cancel, if_pos habs,
      Option.some.injEq]
    omega
  case isFalse hnonneg =>
    rw [parseInt_formatUint (by omega), Option.some.injEq]
    omega

/-! ## Slash-separated paths -/

/-- One element of a path is added to those that come before it, the last one first. -/
def cleanElement (rooted : Bool) (before : List String) (element : String) : List String :=
  if element = "" ∨ element = "." then
    before
  else if element = ".." then
    match before with
    | [] => if rooted then [] else [".."]
    | last :: rest => if last = ".." then ".." :: before else rest
  else
    element :: before

/-- `path.Clean`. -/
def pathClean (path : String) : String :=
  let rooted := path.toList.head? = some '/'
  let cleaned := join ((split path '/').foldl (cleanElement rooted) []).reverse '/'
  if rooted then "/" ++ cleaned else if cleaned = "" then "." else cleaned

/-- `path.Join` of two elements. -/
def pathJoin (a b : String) : String :=
  if a = "" ∧ b = "" then "" else pathClean (if a = "" then b else a ++ "/" ++ b)

/-- An element that stands for something. -/
def isReal (element : String) : Bool := element ≠ "" && element ≠ "."

/-- Either only what stands for nothing is dropped, or an element is dropped together with the `..`
that follows it. -/
theorem foldl_cleanElement (elements before : List String) :
    elements.foldl (cleanElement false) before = (elements.filter isReal).reverse ++ before ∨
      (elements.foldl (cleanElement false) before).length + 2 ≤
        before.length + elements.length := by
  induction elements generalizing before with
  | nil => exact .inl rfl
  | cons element rest ih =>
    rw [foldl_cons, length_cons]
    by_cases hreal : isReal element = true
    · rw [filter_cons_of_pos hreal, reverse_cons, append_assoc, singleton_append]
      have hkept : cleanElement false before element = element :: before ∨
          (cleanElement false before element).length + 1 ≤ before.length := by
        have hempty : ¬(element = "" ∨ element = ".") := by simpa [isReal] using hreal
        rw [cleanElement.eq_def, if_neg hempty]
        split
        case isTrue hparent =>
          cases before with
          | nil => exact .inl (by rw [hparent]; rfl)
          | cons last others =>
            by_cases hlast : last = ".."
            · exact .inl (by simp [hlast, hparent])
            · exact .inr (by simp [hlast])
        case isFalse => exact .inl rfl
      rcases hkept with heq | hlength
      · rw [heq]
        refine (ih _).imp_right fun hle => ?_
        rw [length_cons] at hle
        omega
      · right
        rcases ih (cleanElement false before element) with heq | hle
        · have hfilter := length_filter_le isReal rest
          rw [heq, length_append, length_reverse]
          omega
        · omega
    · have hsame : cleanElement false before element = before := by
        rw [cleanElement.eq_def, if_pos (by simpa [isReal, or_iff_not_imp_left] using hreal)]
      rw [hsame, filter_cons_of_neg hreal]
      exact (ih before).imp_right fun hle => by omega

theorem mem_foldl_cleanElement {elements before : List String} {element : String}
    (h : element ∈ elements.foldl (cleanElement false) before) :
    element ∈ before ∨ element ∈ elements ∧ isReal element = true := by
  induction elements generalizing before with
  | nil => exact .inl h
  | cons first rest ih =>
    rcases ih h with hbefore | ⟨hrest, hreal⟩
    · unfold cleanElement at hbefore
      split at hbefore
      case isTrue => exact .inl hbefore
      case isFalse hreal =>
        have hreal : isReal first = true := by simpa [isReal] using hreal
        split at hbefore
        case isTrue hparent =>
          split at hbefore
          · simp only [Bool.false_eq_true, if_false, mem_singleton] at hbefore
            rw [hbefore, ← hparent]
            exact .inr ⟨mem_cons_self, hreal⟩
          · split at hbefore
            · rcases mem_cons.mp hbefore with heq | hold
              · rw [heq, ← hparent]
                exact .inr ⟨mem_cons_self, hreal⟩
              · exact .inl hold
            · exact .inl (mem_cons_of_mem _ hbefore)
        case isFalse =>
          rcases mem_cons.mp hbefore with rfl | hold
          · exact .inr ⟨mem_cons_self, hreal⟩
          · exact .inl hold
    · exact .inr ⟨mem_cons_of_mem _ hrest, hreal⟩

/-- The elements that are left of a relative path. -/
def cleanElements (a b : String) : List String :=
  ((a :: split b '/').foldl (cleanElement false) []).reverse

theorem mem_cleanElements {a b element : String} (h : element ∈ cleanElements a b) :
    element ∈ a :: split b '/' ∧ isReal element = true := by
  rw [cleanElements, mem_reverse] at h
  exact (mem_foldl_cleanElement h).resolve_left not_mem_nil

theorem cleanElements_cases (a b : String) :
    cleanElements a b = (a :: split b '/').filter isReal ∨
      (cleanElements a b).length + 2 ≤ (a :: split b '/').length := by
  have h := foldl_cleanElement (a :: split b '/') []
  rw [append_nil, length_nil, Nat.zero_add] at h
  unfold cleanElements
  rw [length_reverse]
  refine h.imp_left fun heq => ?_
  rw [heq, reverse_reverse]

theorem pathJoin_eq {a b : String} (hne : a ≠ "") (ha : '/' ∉ a.toList) :
    pathJoin a b =
      if join (cleanElements a b) '/' = "" then "." else join (cleanElements a b) '/' := by
  have hrooted : ¬((a ++ "/" ++ b).toList.head? = some '/') := by
    rw [String.toList_append, String.toList_append, append_assoc]
    cases hlist : a.toList with
    | nil => exact absurd (String.toList_inj.mp (hlist.trans String.toList_empty.symm)) hne
    | cons c cs =>
      rw [cons_append, List.head?_cons, Option.some.injEq]
      exact fun heq => ha (hlist ▸ heq ▸ mem_cons_self)
  rw [pathJoin, if_neg (fun h => hne h.1), if_neg hne, pathClean]
  have hsplit : split (a ++ "/" ++ b) '/' = a :: split b '/' := by
    rw [show "/" = String.singleton '/' from rfl, split_append, split_of_not_mem ha]
    rfl
  simp only [hrooted, decide_false, hsplit, if_false]
  rfl

/-- The elements of a path that has been joined, unless nothing is left of it. -/
theorem split_pathJoin {a b : String} (hne : a ≠ "") (ha : '/' ∉ a.toList) :
    cleanElements a b = [] ∧ pathJoin a b = "." ∨ split (pathJoin a b) '/' = cleanElements a b := by
  have hslash : ∀ element ∈ cleanElements a b, '/' ∉ element.toList := by
    intro element hmem
    rcases mem_cons.mp (mem_cleanElements hmem).1 with rfl | hin
    · exact ha
    · exact not_mem_of_mem_split hin
  rw [pathJoin_eq hne ha]
  cases helements : cleanElements a b with
  | nil => exact .inl ⟨rfl, rfl⟩
  | cons first rest =>
    right
    rw [helements] at hslash
    have hsplit := split_join (cons_ne_nil first rest) hslash
    rw [if_neg, hsplit]
    intro hempty
    -- an empty path has one element, which is empty
    rw [hempty] at hsplit
    obtain ⟨hfirst, -⟩ := List.cons.inj (show [""] = first :: rest from hsplit)
    have hreal := (mem_cleanElements (helements ▸ mem_cons_self : first ∈ _)).2
    rw [← hfirst] at hreal
    exact absurd hreal (by decide)

/-! ## Hexadecimal numbers -/

/-- The two digits of a byte. -/
def hexDigits (b : UInt8) : List Char :=
  [Nat.digitChar (b.toNat / 16), Nat.digitChar (b.toNat % 16)]

/-- `hex.EncodeToString`. -/
def hexEncode (bytes : List UInt8) : String := String.ofList (bytes.flatMap hexDigits)

theorem digitChar_inj : ∀ m n : Fin 16, Nat.digitChar m = Nat.digitChar n → m = n := by
  decide

theorem isHexDigit_digitChar : ∀ n : Fin 16,
    (Nat.digitChar n).isDigit || (Nat.digitChar n).isLower := by
  decide

theorem hexDigits_injective {a b : UInt8} (h : hexDigits a = hexDigits b) : a = b := by
  obtain ⟨hhigh, hlow⟩ := List.cons.inj h
  have hlt : ∀ c : UInt8, c.toNat / 16 < 16 := fun c => by have := c.toNat_lt; omega
  have hmod : ∀ c : UInt8, c.toNat % 16 < 16 := fun c => Nat.mod_lt _ (by decide)
  have hdiv := congrArg Fin.val (digitChar_inj ⟨_, hlt a⟩ ⟨_, hlt b⟩ hhigh)
  have hrem := congrArg Fin.val (digitChar_inj ⟨_, hmod a⟩ ⟨_, hmod b⟩ (List.cons.inj hlow).1)
  apply UInt8.toNat_inj.mp
  dsimp only at hdiv hrem
  omega

theorem length_hexEncode (bytes : List UInt8) :
    (hexEncode bytes).toList.length = 2 * bytes.length := by
  rw [hexEncode, String.toList_ofList]
  induction bytes with
  | nil => rfl
  | cons b bytes ih =>
    rw [flatMap_cons, length_append, ih, length_cons]
    show 2 + 2 * bytes.length = _
    omega

theorem hexEncode_injective {as bs : List UInt8} (h : hexEncode as = hexEncode bs) : as = bs := by
  have hchars : as.flatMap hexDigits = bs.flatMap hexDigits := String.ofList_injective h
  clear h
  induction as generalizing bs with
  | nil =>
    cases bs with
    | nil => rfl
    | cons b bs => cases hchars
  | cons a as ih =>
    cases bs with
    | nil => cases hchars
    | cons b bs =>
      obtain ⟨hfirst, hrest⟩ := append_inj hchars rfl
      rw [hexDigits_injective hfirst, ih hrest]

theorem isHexDigit_of_mem_hexEncode {bytes : List UInt8} {c : Char}
    (h : c ∈ (hexEncode bytes).toList) : c.isDigit || c.isLower := by
  rw [hexEncode, String.toList_ofList, mem_flatMap] at h
  obtain ⟨b, -, hc⟩ := h
  have hlt : b.toNat / 16 < 16 := by have := b.toNat_lt; omega
  have hmod : b.toNat % 16 < 16 := Nat.mod_lt _ (by decide)
  rcases mem_pair.mp hc with rfl | rfl
  · exact isHexDigit_digitChar ⟨_, hlt⟩
  · exact isHexDigit_digitChar ⟨_, hmod⟩

example : pathJoin "a.io" "team//./x/../app/" = "a.io/team/app" := by decide
example : parseInt "-12" 64 = some (-12) := by decide
example : split "a/b//c" '/' = ["a", "b", "", "c"] := by decide

end Strings
