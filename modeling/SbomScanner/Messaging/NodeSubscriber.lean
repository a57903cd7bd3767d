import SbomScanner.Lib.DnsName

/-!
# The durable consumer of a node

The worker on a node takes its messages from a consumer that is called after the node. NATS has no
dots in such names and no more than 255 characters: the dots become underscores, which no node name
has, and a name that is too long is cut off and gets a hash of the node name at its end.

Both ways are injective, but together they are not: a node name that just fits may itself read like
another one that has been cut off, hash and all (`Imitates`). Whatever the hash function is, there
are two such nodes (`exists_collision`), and they share a consumer. Other pairs of node names are
told apart (`subscriberNames_ok_iff`).
-/

namespace SbomScanner.Messaging

open Strings
open DnsName (Subdomain alphanumeric labelChar)

/-- The function that `strings.Map` is called with. A character is dropped if this is `none`. -/
def sanitizeRune (r : Char) : Option Char :=
  if r = '.' then
    some '_'
  else if r = '-' || r.isLower || r.isDigit then
    some r
  else
    none

def truncatedHash (sha256 : String → Vector UInt8 32) (nodeName : String) : List UInt8 :=
  (sha256 nodeName).toList.take 16

def hashSuffix (sha256 : String → Vector UInt8 32) (nodeName : String) : String :=
  "-" ++ hexEncode (truncatedHash sha256 nodeName)

def maxLen : Nat := 255

def consumerPrefix : String := "worker-node-"

def fullName (nodeName : String) : String :=
  consumerPrefix ++ String.ofList (nodeName.toList.filterMap sanitizeRune)

/-- The durable consumer name of the node worker for the given node name. What is left of the node
name is ASCII, so `len` counts characters. -/
def sanitizeNodeSubscriberName (sha256 : String → Vector UInt8 32) (nodeName : String) : String :=
  let name := fullName nodeName
  if name.toList.length > maxLen then
    let suffix := hashSuffix sha256 nodeName
    String.ofList (name.toList.take (maxLen - suffix.toList.length)) ++ suffix
  else
    name

/-! ## What NATS asks for, and what it takes -/

/-- A name that NATS takes. -/
def Admissible (name : String) : Prop :=
  name.toList.length ≤ maxLen ∧
    ∀ c ∈ name.toList, c.isLower = true ∨ c.isDigit = true ∨ c = '_' ∨ c = '-'

/-- The name of the node is too long for the consumer. -/
def Overlong (node : Subdomain) : Prop := 243 < node.text.toList.length

instance : DecidablePred Overlong := fun _ => inferInstanceAs (Decidable (_ < _))

/-- The one node is called as the consumer of the other: its name is the other one up to where that
is cut off, with the hash of the other one behind it. -/
def Imitates (sha256 : String → Vector UInt8 32) (node other : Subdomain) : Prop :=
  Overlong other ∧
    node.text = String.ofList (other.text.toList.take 210) ++ hashSuffix sha256 other.text

instance (sha256 : String → Vector UInt8 32) (node other : Subdomain) :
    Decidable (Imitates sha256 node other) :=
  inferInstanceAs (Decidable (_ ∧ _))

variable {sha256 : String → Vector UInt8 32} {node other : Subdomain}

def replaceDot (c : Char) : Char := if c = '.' then '_' else c

theorem sanitizeRune_eq {c : Char} (h : labelChar c = true ∨ c = '.') :
    sanitizeRune c = some (replaceDot c) := by
  unfold sanitizeRune replaceDot
  rcases h with h | rfl
  · by_cases hdot : c = '.'
    · simp [hdot]
    · rw [if_neg hdot, if_neg hdot, if_pos]
      simp only [labelChar, alphanumeric, Bool.or_eq_true, decide_eq_true_eq] at h ⊢
      tauto
  · rfl

variable {cs : List Char}

theorem filterMap_sanitizeRune (h : ∀ c ∈ cs, labelChar c = true ∨ c = '.') :
    cs.filterMap sanitizeRune = cs.map replaceDot := by
  rw [← List.filterMap_eq_map]
  apply List.filterMap_congr
  intro c hc
  rw [sanitizeRune_eq (h c hc)]
  rfl

theorem replaceDot_injOn {ds : List Char} (hcs : ∀ c ∈ cs, labelChar c = true ∨ c = '.')
    (hds : ∀ c ∈ ds, labelChar c = true ∨ c = '.') (h : cs.map replaceDot = ds.map replaceDot) :
    cs = ds := by
  have hinj : ∀ c d, (labelChar c = true ∨ c = '.') → (labelChar d = true ∨ d = '.') →
      replaceDot c = replaceDot d → c = d := by
    intro c d hc hd heq
    have hunderscore : labelChar '_' = false := by decide
    unfold replaceDot at heq
    grind
  induction cs generalizing ds with
  | nil => simpa using h.symm
  | cons c cs ih =>
    cases ds with
    | nil => cases h
    | cons d ds =>
      obtain ⟨hhead, htail⟩ := List.cons.inj h
      rw [hinj c d (hcs c List.mem_cons_self) (hds d List.mem_cons_self) hhead,
        ih (fun x hx => hcs x (List.mem_cons_of_mem c hx))
          (fun x hx => hds x (List.mem_cons_of_mem d hx)) htail]

/-! ## The name of a consumer -/

theorem chars_node (node : Subdomain) : ∀ c ∈ node.text.toList, labelChar c = true ∨ c = '.' :=
  fun _ hc => DnsName.labelChar_or_dot node.valid hc

theorem length_truncatedHash (nodeName : String) : (truncatedHash sha256 nodeName).length = 16 := by
  simp [truncatedHash]

theorem toList_hashSuffix (nodeName : String) : (hashSuffix sha256 nodeName).toList =
    '-' :: (hexEncode (truncatedHash sha256 nodeName)).toList := String.toList_append

theorem length_hashSuffix (nodeName : String) :
    (hashSuffix sha256 nodeName).toList.length = 33 := by
  rw [toList_hashSuffix, List.length_cons, length_hexEncode, length_truncatedHash]

theorem labelChar_hashSuffix (nodeName : String) :
    ∀ c ∈ (hashSuffix sha256 nodeName).toList, labelChar c = true := by
  intro c hc
  rw [toList_hashSuffix] at hc
  rcases List.mem_cons.mp hc with rfl | hhex
  · decide
  · have hdigit := isHexDigit_of_mem_hexEncode hhex
    rw [Bool.or_comm] at hdigit
    rw [labelChar, alphanumeric, hdigit, Bool.true_or]

theorem toList_fullName (node : Subdomain) :
    (fullName node.text).toList = consumerPrefix.toList ++ node.text.toList.map replaceDot := by
  rw [fullName, String.toList_append, String.toList_ofList,
    filterMap_sanitizeRune (chars_node node)]

theorem length_consumerPrefix : consumerPrefix.toList.length = 12 := rfl

theorem overlong_iff (node : Subdomain) :
    (fullName node.text).toList.length > maxLen ↔ Overlong node := by
  rw [toList_fullName, List.length_append, List.length_map, length_consumerPrefix, Overlong, maxLen]
  omega

theorem toList_sanitize_of_short (h : ¬ Overlong node) :
    (sanitizeNodeSubscriberName sha256 node.text).toList =
      consumerPrefix.toList ++ node.text.toList.map replaceDot := by
  rw [sanitizeNodeSubscriberName, if_neg (mt (overlong_iff node).mp h), toList_fullName]

theorem toList_sanitize_of_overlong (h : Overlong node) :
    (sanitizeNodeSubscriberName sha256 node.text).toList =
      consumerPrefix.toList ++ ((node.text.toList.take 210).map replaceDot ++
        (hashSuffix sha256 node.text).toList) := by
  rw [sanitizeNodeSubscriberName, if_pos ((overlong_iff node).mpr h), String.toList_append,
    String.toList_ofList, length_hashSuffix, toList_fullName, List.take_append,
    length_consumerPrefix, List.map_take, List.append_assoc]
  rfl

/-! ## The names are admissible -/

theorem replaceDot_admissible {c : Char} (h : labelChar c = true ∨ c = '.') :
    (replaceDot c).isLower = true ∨ (replaceDot c).isDigit = true ∨ replaceDot c = '_' ∨
      replaceDot c = '-' := by
  unfold replaceDot
  split
  case isTrue => exact .inr (.inr (.inl rfl))
  case isFalse hdot =>
    have hlabel := h.resolve_right hdot
    simp only [labelChar, alphanumeric, Bool.or_eq_true, decide_eq_true_eq] at hlabel
    tauto

theorem map_replaceDot_of_labelChar (h : ∀ c ∈ cs, labelChar c = true) :
    cs.map replaceDot = cs := by
  nth_rewrite 2 [← List.map_id cs]
  apply List.map_congr_left
  intro c hc
  apply if_neg
  rintro rfl
  exact absurd (h '.' hc) (by decide)

/-- The text of which the name of a consumer is made: a node could have it. -/
def consumerText (sha256 : String → Vector UInt8 32) (node : Subdomain) : List Char :=
  if Overlong node then
    node.text.toList.take 210 ++ (hashSuffix sha256 node.text).toList
  else
    node.text.toList

theorem chars_consumerText : ∀ c ∈ consumerText sha256 node, labelChar c = true ∨ c = '.' := by
  intro c hc
  unfold consumerText at hc
  split at hc
  · rcases List.mem_append.mp hc with hnode | hsuffix
    · exact chars_node node c (List.mem_of_mem_take hnode)
    · exact .inl (labelChar_hashSuffix _ c hsuffix)
  · exact chars_node node c hc

theorem length_consumerText : (consumerText sha256 node).length ≤ 243 := by
  unfold consumerText
  split
  case isTrue =>
    rw [List.length_append, List.length_take, length_hashSuffix]
    omega
  case isFalse h => exact Nat.le_of_not_lt h

theorem toList_sanitize :
    (sanitizeNodeSubscriberName sha256 node.text).toList =
      consumerPrefix.toList ++ (consumerText sha256 node).map replaceDot := by
  unfold consumerText
  split
  case isTrue h =>
    rw [toList_sanitize_of_overlong h, List.map_append,
      map_replaceDot_of_labelChar (labelChar_hashSuffix _)]
  case isFalse h => exact toList_sanitize_of_short h

theorem admissible_sanitize (sha256 : String → Vector UInt8 32) (node : Subdomain) :
    Admissible (sanitizeNodeSubscriberName sha256 node.text) := by
  rw [Admissible, toList_sanitize]
  constructor
  · have hlength : (consumerText sha256 node).length ≤ 243 := length_consumerText
    rw [List.length_append, List.length_map, length_consumerPrefix, maxLen]
    omega
  · intro c hc
    rcases List.mem_append.mp hc with hprefix | hnode
    · have hall : consumerPrefix.toList.all (fun c => c.isLower || c = '-') = true := by decide
      have hc := List.all_eq_true.mp hall c hprefix
      rw [Bool.or_eq_true, decide_eq_true_eq] at hc
      tauto
    · obtain ⟨d, hd, rfl⟩ := List.mem_map.mp hnode
      exact replaceDot_admissible (chars_consumerText d hd)

/-! ## Which names are told apart -/

theorem sanitize_eq_iff : sanitizeNodeSubscriberName sha256 node.text =
      sanitizeNodeSubscriberName sha256 other.text ↔
    consumerText sha256 node = consumerText sha256 other := by
  rw [← String.toList_inj, toList_sanitize, toList_sanitize, List.append_cancel_left_eq]
  constructor
  · exact replaceDot_injOn chars_consumerText chars_consumerText
  · intro h
    rw [h]

theorem imitates_iff : Imitates sha256 node other ↔
    Overlong other ∧ node.text.toList = consumerText sha256 other := by
  refine and_congr_right fun h => ?_
  rw [consumerText, if_pos h, ← String.toList_inj, String.toList_append, String.toList_ofList]

/-- A name that is the text of another consumer is not too long itself. -/
theorem not_overlong_of_imitates (h : Imitates sha256 node other) : ¬ Overlong node := by
  have hlength : (consumerText sha256 other).length ≤ 243 := length_consumerText
  rw [Overlong, (imitates_iff.mp h).2]
  omega

/-- Different texts, unless one of the nodes imitates the other. -/
theorem eq_of_consumerText_eq (hhash : Overlong node → Overlong other → node ≠ other →
      truncatedHash sha256 node.text ≠ truncatedHash sha256 other.text)
    (hnode : ¬ Imitates sha256 node other) (hother : ¬ Imitates sha256 other node)
    (h : consumerText sha256 node = consumerText sha256 other) : node = other := by
  by_cases hlong : Overlong node
  · by_cases hlong' : Overlong other
    · -- both are cut off at the same place, and the hashes are what follows
      by_contra hne
      apply hhash hlong hlong' hne
      rw [consumerText, consumerText, if_pos hlong, if_pos hlong'] at h
      have hsuffix := (List.append_inj' h
        ((length_hashSuffix _).trans (length_hashSuffix _).symm)).2
      rw [toList_hashSuffix, toList_hashSuffix] at hsuffix
      exact hexEncode_injective (String.toList_inj.mp (List.cons.inj hsuffix).2)
    · have htext : consumerText sha256 other = other.text.toList := if_neg hlong'
      exact absurd (imitates_iff.mpr ⟨hlong, htext.symm.trans h.symm⟩) hother
  · have htext : consumerText sha256 node = node.text.toList := if_neg hlong
    by_cases hlong' : Overlong other
    · exact absurd (imitates_iff.mpr ⟨hlong', htext.symm.trans h⟩) hnode
    · have htext' : consumerText sha256 other = other.text.toList := if_neg hlong'
      exact Subdomain.ext (String.toList_inj.mp (htext.symm.trans (h.trans htext')))

theorem consumerText_of_imitates (h : Imitates sha256 node other) :
    consumerText sha256 node = consumerText sha256 other := by
  rw [← (imitates_iff.mp h).2]
  exact if_neg (not_overlong_of_imitates h)

theorem ne_of_imitates (h : Imitates sha256 node other) : node ≠ other := by
  rintro rfl
  exact not_overlong_of_imitates h h.1

/-- Two nodes get admissible names, and different ones if they are different, iff neither of them
imitates the other. -/
theorem subscriberNames_ok_iff (sha256 : String → Vector UInt8 32) (node other : Subdomain)
    (hhash : Overlong node → Overlong other → node ≠ other →
      truncatedHash sha256 node.text ≠ truncatedHash sha256 other.text) :
    Admissible (sanitizeNodeSubscriberName sha256 node.text) ∧
        Admissible (sanitizeNodeSubscriberName sha256 other.text) ∧
        (node ≠ other → sanitizeNodeSubscriberName sha256 node.text ≠
          sanitizeNodeSubscriberName sha256 other.text) ↔
      ¬ Imitates sha256 node other ∧ ¬ Imitates sha256 other node := by
  constructor
  · rintro ⟨-, -, hdistinct⟩
    constructor
    · intro himitates
      exact hdistinct (ne_of_imitates himitates)
        (sanitize_eq_iff.mpr (consumerText_of_imitates himitates))
    · intro himitates
      exact hdistinct (ne_of_imitates himitates).symm
        (sanitize_eq_iff.mpr (consumerText_of_imitates himitates).symm)
  · rintro ⟨hnode, hother⟩
    refine ⟨admissible_sanitize sha256 node, admissible_sanitize sha256 other, ?_⟩
    intro hne heq
    exact hne (eq_of_consumerText_eq hhash hnode hother (sanitize_eq_iff.mp heq))

def noHash : String → Vector UInt8 32 := fun _ => Vector.replicate 32 0

/-- A dot and a dash in the same place. -/
theorem subscriberNames_ok_iff_dotAndDash :
    sanitizeNodeSubscriberName noHash "node-1.local" ≠
      sanitizeNodeSubscriberName noHash "node-1-local" := by
  have hok := (subscriberNames_ok_iff noHash ⟨"node-1.local", by decide⟩
    ⟨"node-1-local", by decide⟩ (fun hlong => absurd hlong (by decide))).mpr
    ⟨by decide, by decide⟩
  exact hok.2.2 (by decide)

/-! ## Two nodes that share a consumer -/

def letters (n : Nat) : String := String.ofList (List.replicate n 'a')

theorem toList_letters (n : Nat) : (letters n).toList = List.replicate n 'a' :=
  String.toList_ofList

theorem isLabel_letters {n : Nat} (h : 0 < n) : DnsName.isLabel (letters n) = true := by
  have hchar : labelChar 'a' = true ∧ alphanumeric 'a' = true := by decide
  rw [DnsName.isLabel, toList_letters, List.head?_replicate, List.getLast?_replicate,
    if_neg (by omega)]
  simp [hchar]

theorem isSubdomain_letters : DnsName.isSubdomain (letters 244) = true := by
  apply DnsName.isSubdomain_of_isLabel (isLabel_letters (by decide))
  rw [toList_letters, List.length_replicate]
  decide

def longNode : Subdomain := ⟨letters 244, isSubdomain_letters⟩

theorem overlong_longNode : Overlong longNode := by
  rw [Overlong, longNode, toList_letters, List.length_replicate]
  decide

theorem getLast?_hashSuffix (nodeName : String) :
    (hashSuffix sha256 nodeName).toList.getLast?.any alphanumeric = true := by
  have hhex : (hexEncode (truncatedHash sha256 nodeName)).toList ≠ [] := by
    rw [← List.length_pos_iff, length_hexEncode, length_truncatedHash]
    decide
  obtain ⟨c, hc⟩ := Option.ne_none_iff_exists'.mp (mt List.getLast?_eq_none_iff.mp hhex)
  have hdigit := isHexDigit_of_mem_hexEncode (List.mem_of_getLast? hc)
  rw [toList_hashSuffix, List.getLast?_cons, hc, Option.any_some, alphanumeric, Bool.or_comm]
  exact hdigit

theorem isSubdomain_imitator (sha256 : String → Vector UInt8 32) :
    DnsName.isSubdomain (letters 210 ++ hashSuffix sha256 longNode.text) = true := by
  apply DnsName.isSubdomain_of_isLabel
  · exact DnsName.isLabel_append (isLabel_letters (by decide)) (labelChar_hashSuffix _)
      (getLast?_hashSuffix _)
  · rw [String.toList_append, toList_letters, List.length_append, length_hashSuffix,
      List.length_replicate]
    decide

/-- The node that is called as the consumer of the other one. -/
def imitator (sha256 : String → Vector UInt8 32) : Subdomain :=
  ⟨letters 210 ++ hashSuffix sha256 longNode.text, isSubdomain_imitator sha256⟩

theorem imitates_imitator : Imitates sha256 (imitator sha256) longNode := by
  refine ⟨overlong_longNode, ?_⟩
  rw [longNode, toList_letters, List.take_replicate]
  rfl

/-- No hash function helps. -/
theorem exists_collision (sha256 : String → Vector UInt8 32) : ∃ node other : Subdomain,
    node ≠ other ∧ sanitizeNodeSubscriberName sha256 node.text =
      sanitizeNodeSubscriberName sha256 other.text :=
  ⟨imitator sha256, longNode, ne_of_imitates imitates_imitator,
    sanitize_eq_iff.mpr (consumerText_of_imitates imitates_imitator)⟩

theorem hashSuffix_noHash (nodeName : String) :
    hashSuffix noHash nodeName = "-00000000000000000000000000000000" := by
  show "-" ++ hexEncode ((Vector.replicate 32 0).toList.take 16) = _
  decide +kernel

/-- With a hash of zeros, the one node has 244 letters, and the other one 210 and the zeros. -/
theorem two_nodes_share_consumer :
    longNode.text = letters 244 ∧
      (imitator noHash).text = letters 210 ++ "-00000000000000000000000000000000" ∧
      imitator noHash ≠ longNode ∧
      sanitizeNodeSubscriberName noHash (imitator noHash).text =
        sanitizeNodeSubscriberName noHash longNode.text := by
  refine ⟨rfl, ?_, ne_of_imitates imitates_imitator,
    sanitize_eq_iff.mpr (consumerText_of_imitates imitates_imitator)⟩
  rw [← hashSuffix_noHash longNode.text]
  rfl

end SbomScanner.Messaging
