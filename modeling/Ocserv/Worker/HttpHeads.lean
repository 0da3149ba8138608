import Mathlib.Data.List.GetD
import Ocserv.Lines
import Ocserv.Worker.Headers

/-!
# Worker: the table of headers

`src/http-heads.h`, which gperf makes of `src/http-heads.gperf`: the place of a name is computed
from its length and two of its characters.

* `inWordSet_eq` : **the place is the right one**, for every name.
-/

namespace Ocserv

namespace Worker

namespace HttpHeads

/-- `asso_values` -/
def assoValues : List ℕ :=
  [36, 36, 36, 36, 36, 36, 36, 36, 36, 36,
    36, 36, 36, 36, 36, 36, 36, 36, 36, 36,
    36, 36, 36, 36, 36, 36, 36, 36, 36, 36,
    36, 36, 36, 36, 36, 36, 36, 36, 36, 36,
    36, 36, 36, 36, 36, 36, 36, 36, 36, 36,
    36, 36, 36, 36, 36, 36, 36, 36, 36, 36,
    36, 36, 36, 36, 36, 0, 15, 5, 0, 36,
    0, 36, 10, 36, 36, 36, 36, 5, 36, 36,
    36, 36, 36, 0, 36, 36, 36, 36, 36, 36,
    36, 36, 36, 36, 36, 36, 36, 36, 36, 36,
    36, 5, 36, 36, 36, 0, 36, 36, 36, 36,
    0, 0, 36, 36, 0, 36, 0, 36, 36, 36,
    36, 36, 0, 36, 36, 36, 36, 36, 36, 36,
    36, 36, 36, 36, 36, 36, 36, 36, 36, 36,
    36, 36, 36, 36, 36, 36, 36, 36, 36, 36,
    36, 36, 36, 36, 36, 36, 36, 36, 36, 36,
    36, 36, 36, 36, 36, 36, 36, 36, 36, 36,
    36, 36, 36, 36, 36, 36, 36, 36, 36, 36,
    36, 36, 36, 36, 36, 36, 36, 36, 36, 36,
    36, 36, 36, 36, 36, 36, 36, 36, 36, 36,
    36, 36, 36, 36, 36, 36, 36, 36, 36, 36,
    36, 36, 36, 36, 36, 36, 36, 36, 36, 36,
    36, 36, 36, 36, 36, 36, 36, 36, 36, 36,
    36, 36, 36, 36, 36, 36, 36, 36, 36, 36,
    36, 36, 36, 36, 36, 36, 36, 36, 36, 36,
    36, 36, 36, 36, 36, 36]

/-- `wordlist`, as gperf places it. -/
def words : List (String × Option Header) :=
  [("", none), ("", none), ("", none), ("", none), ("", none), ("", none),
    ("Cookie", some .cookie), ("", none), ("", none), ("", none),
    ("Connection", some .connection), ("", none), ("", none),
    ("Authorization", some .authorization), ("", none), ("", none), ("", none), ("", none),
    ("", none), ("X-Support-HTTP-Auth", some .supportSpnego), ("User-Agent", some .userAgent),
    ("", none), ("X-DTLS-Accept-Encoding", some .dtlsEncoding),
    ("X-DTLS-CipherSuite", some .dtlsCiphersuite), ("X-CSTP-Address-Type", some .cstpAtype),
    ("X-DTLS-Master-Secret", some .masterSecret), ("", none),
    ("X-CSTP-Accept-Encoding", some .cstpEncoding), ("", none), ("", none),
    ("X-CSTP-Hostname", some .hostname), ("", none),
    ("X-CSTP-Full-IPv6-Capability", some .fullIpv6), ("", none),
    ("X-AnyConnect-Identifier-DeviceType", some .deviceType),
    ("X-CSTP-Base-MTU", some .cstpBaseMtu)]

def maxWordLength : ℕ := 34
def minWordLength : ℕ := 6
def maxHashValue : ℕ := 35

/-- The value of a character, which is at its place if the name is long enough. -/
def asso (str : List UInt8) (i : ℕ) : ℕ := assoValues.getD (str.getD i 0).toNat 0

/-- `hash` -/
def hash (str : List UInt8) : ℕ :=
  match str.length with
  | 3 | 4 | 5 | 6 | 7 => str.length + asso str 2
  | _ => str.length + asso str 7 + asso str 2

/-- `in_word_set`: the first character is compared, and the strings behind it. -/
def inWordSet (str : List UInt8) : Option Header :=
  if str.length ≤ maxWordLength ∧ minWordLength ≤ str.length then
    let key := hash str
    if key ≤ maxHashValue then
      let (name, id) := words.getD key ("", none)
      let s := ascii name
      if str.headD 0 = s.headD 0 ∧ cString str.tail = cString s.tail then id else none
    else none
  else none

/-- What `in_word_set` finds is the name itself. -/
theorem exists_word {str : List UInt8} {header : Header} (h : 0 ∉ str)
    (hfound : inWordSet str = some header) :
    ∃ p ∈ words, ascii p.1 = str ∧ p.2 = some header := by
  have hzero : ∀ p ∈ words, 0 ∉ ascii p.1 := by decide
  have hnil : ∀ p ∈ words, ascii p.1 = [] → p.2 = none := by decide
  rw [inWordSet, Option.ite_none_right_eq_some] at hfound
  obtain ⟨⟨-, hmin⟩, hfound⟩ := hfound
  rw [Option.ite_none_right_eq_some] at hfound
  obtain ⟨hkey, hfound⟩ := hfound
  have hlt : hash str < words.length := Nat.lt_succ_of_le hkey
  have hmem : words.getD (hash str) ("", none) ∈ words := by
    rw [List.getD_eq_getElem _ _ hlt]
    exact List.getElem_mem hlt
  generalize words.getD (hash str) ("", none) = p at hfound hmem
  obtain ⟨⟨hhead, htail⟩, hid⟩ := Option.ite_none_right_eq_some.1 hfound
  refine ⟨p, hmem, ?_, hid⟩
  have hp := hzero p hmem
  cases hname : ascii p.1 with
  | nil =>
    rw [hnil p hmem hname] at hid
    cases hid
  | cons a name =>
    cases str with
    | nil => cases hmin
    | cons b str =>
      rw [hname] at hhead htail hp
      rw [List.mem_cons, not_or] at h hp
      rw [cString, cString, List.tail_cons, List.tail_cons, Lines.takeWhile_of_notMem h.2,
        Lines.takeWhile_of_notMem hp.2] at htail
      rw [show b = a from hhead, htail]

/-- **The hash of gperf is perfect**: for a name of any length and any characters, `in_word_set`
finds what a search of the table finds. -/
theorem inWordSet_eq {str : List UInt8} (h : 0 ∉ str) : inWordSet str = Worker.inWordSet str := by
  have hplaced : ∀ p ∈ wordlist, inWordSet p.1 = some p.2 := by decide
  have hlisted : ∀ p ∈ words, p.2 = none ∨ Worker.inWordSet (ascii p.1) = p.2 := by decide
  cases hlist : Worker.inWordSet str with
  | some header =>
    obtain ⟨p, hfind, rfl⟩ := Option.map_eq_some_iff.1 hlist
    have hname : p.1 = str := by simpa using List.find?_some hfind
    rw [← hname]
    exact hplaced p (List.mem_of_find?_eq_some hfind)
  | none =>
    rw [Option.eq_none_iff_forall_ne_some]
    intro header hfound
    obtain ⟨p, hp, rfl, hid⟩ := exists_word h hfound
    obtain hnone | hsome := hlisted p hp
    · rw [hnone] at hid
      cases hid
    · rw [hlist, hid] at hsome
      cases hsome

theorem inWordSet_eq_cookies :
    0 ∉ ascii "Cookies" ∧ inWordSet (ascii "Cookies") = Worker.inWordSet (ascii "Cookies") :=
  ⟨by decide, inWordSet_eq (by decide)⟩

end HttpHeads

end Worker

end Ocserv
