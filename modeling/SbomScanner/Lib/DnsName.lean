import SbomScanner.Lib.Strings

/-!
# DNS names

The names that Kubernetes admits for most of its objects, nodes among them: lower-case labels that
are joined by dots, as in RFC 1123, of at most 253 characters. A label consists of letters, digits
and dashes and has no dash at either end.
-/

open List Strings

namespace DnsName

def alphanumeric (c : Char) : Bool := c.isLower || c.isDigit

def labelChar (c : Char) : Bool := alphanumeric c || c = '-'

/-- `[a-z0-9]([-a-z0-9]*[a-z0-9])?` -/
def isLabel (label : String) : Bool :=
  label.toList.all labelChar && label.toList.head?.any alphanumeric &&
    label.toList.getLast?.any alphanumeric

def maxLength : Nat := 253

/-- `IsDNS1123Subdomain`. -/
def isSubdomain (name : String) : Bool :=
  name.toList.length ≤ maxLength && (split name '.').all isLabel

/-- A name that is admitted. -/
@[ext]
structure Subdomain where
  text : String
  valid : isSubdomain text = true
  deriving DecidableEq

variable {name : String} {c : Char}

theorem labelChar_or_dot (h : isSubdomain name = true) (hc : c ∈ name.toList) :
    labelChar c = true ∨ c = '.' := by
  rw [isSubdomain, Bool.and_eq_true, all_eq_true] at h
  rcases mem_or_eq_sep hc '.' with rfl | ⟨label, hlabel, hin⟩
  · exact .inr rfl
  · have hvalid := h.2 label hlabel
    rw [isLabel, Bool.and_eq_true, Bool.and_eq_true, all_eq_true] at hvalid
    exact .inl (hvalid.1.1 c hin)

theorem ne_of_mem (h : isSubdomain name = true) (hc : c ∈ name.toList) {d : Char}
    (hd : labelChar d = false) (hdot : d ≠ '.') : c ≠ d := by
  rintro rfl
  rcases labelChar_or_dot h hc with hlabel | rfl
  · rw [hd] at hlabel
    cases hlabel
  · exact hdot rfl

theorem isSubdomain_of_isLabel (h : isLabel name = true)
    (hlength : name.toList.length ≤ maxLength) : isSubdomain name = true := by
  have hdot : '.' ∉ name.toList := by
    intro hmem
    rw [isLabel, Bool.and_eq_true, Bool.and_eq_true, all_eq_true] at h
    exact absurd (h.1.1 _ hmem) (by decide)
  rw [isSubdomain, split_of_not_mem hdot]
  simp [h, hlength]

/-- A label may go on as long as it does not end in a dash. -/
theorem isLabel_append {rest : String} (h : isLabel name = true)
    (hchars : ∀ c ∈ rest.toList, labelChar c = true)
    (hlast : rest.toList.getLast?.any alphanumeric = true) : isLabel (name ++ rest) = true := by
  rw [isLabel, Bool.and_eq_true, Bool.and_eq_true, all_eq_true] at h
  obtain ⟨⟨hall, hhead⟩, -⟩ := h
  obtain ⟨first, hfirst, hfirstchar⟩ := (Option.any_eq_true _ _).mp hhead
  obtain ⟨last, hlast', hlastchar⟩ := (Option.any_eq_true _ _).mp hlast
  rw [isLabel, String.toList_append, List.head?_append, List.getLast?_append, hfirst, hlast']
  simp only [Option.some_or, Option.any_some, hfirstchar, hlastchar, Bool.and_true, all_eq_true]
  intro c hc
  rcases mem_append.mp hc with hname | hrest
  · exact hall c hname
  · exact hchars c hrest

end DnsName
