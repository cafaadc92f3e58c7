import SessionDirectory.Proofs.Url.Percent
import SessionDirectory.Url.Host

/-!
# Hosts of web addresses

Whatever way a domain name is written, its characters of ASCII end up without capitals, and what a
character stands for stands for itself. So a name is brought to its meaning once: names that mean
the same are the same host, and a host that was read is read as itself.

## Main results

* `Url.Domain.mapped_of_ascii`: a name in ASCII only loses its capitals
* `Url.Domain.mapped_mapped`: what a name means, means itself
* `Url.Domain.mapped_append_cons_of_isUnseen`: what nobody sees makes no difference
* `Url.Host.ofSpecial_congr`: names that mean the same are the same host
* `Url.Host.ofSpecial_of_domain`: the domain that was read is read as itself
-/

set_option autoImplicit false

namespace SessionDirectory.Url

namespace Domain

variable {c d : Char}

theorem image_of_ascii (ascii : c.toNat < 128) : image c = [c.toLower] := by
  rw [image, if_pos ascii]

theorem image_eq_self (ascii : d.toNat < 128) (small : d.toLower = d) : image d = [d] := by
  rw [image_of_ascii ascii, small]

theorem toLower_of_ascii (ascii : c.toNat < 128) :
    c.toLower.toNat < 128 ∧ c.toLower.toLower = c.toLower := by
  have all : ∀ n : Fin 128, (Char.ofNat n).toLower.toNat < 128 ∧
      (Char.ofNat n).toLower.toLower = (Char.ofNat n).toLower := by decide
  simpa only [Char.ofNat_toNat] using all ⟨c.toNat, ascii⟩

theorem toLower_letter (place : Nat) :
    (letter place).toNat < 128 ∧ (letter place).toLower = letter place := by
  have all : ∀ n : Fin 26, (letter n).toNat < 128 ∧ (letter n).toLower = letter n := by decide
  have same : letter (place % 26) = letter place := by rw [letter, letter, Nat.mod_mod]
  rw [← same]
  exact all ⟨place % 26, Nat.mod_lt _ (by decide)⟩

/-- The tables lead to characters of ASCII that are no capitals. -/
theorem all_images : images.all (fun run => run.2.all fun cs => cs.all fun d =>
    decide (d.toNat < 128) && decide (d.toLower = d)) = true := by
  decide +kernel

theorem of_letter?_eq_some {l : Char} (found : letter? c = some l) :
    l.toNat < 128 ∧ l.toLower = l := by
  obtain ⟨⟨first, place, count⟩, -, found⟩ := List.exists_of_findSome?_eq_some found
  obtain ⟨-, found⟩ := Option.ite_none_right_eq_some.mp found
  rw [← Option.some.inj found]
  exact toLower_letter _

theorem of_mem_image? {cs : List Char} (found : image? c = some cs) (mem : d ∈ cs) :
    d.toNat < 128 ∧ d.toLower = d := by
  rw [image?] at found
  split at found
  next l isLetter =>
    cases found
    rw [List.mem_singleton.mp mem]
    exact of_letter?_eq_some isLetter
  next =>
    obtain ⟨⟨first, run⟩, inTable, found⟩ := List.exists_of_findSome?_eq_some found
    obtain ⟨-, found⟩ := Option.ite_none_right_eq_some.mp found
    have images := List.all_eq_true.mp all_images _ inTable
    have image := List.all_eq_true.mp images cs (List.mem_of_getElem? found)
    simpa using List.all_eq_true.mp image d mem

/-- What a character stands for, stands for itself. -/
theorem image_of_mem_image (mem : d ∈ image c) : image d = [d] := by
  by_cases ascii : c.toNat < 128
  · rw [image_of_ascii ascii] at mem
    obtain rfl := List.mem_singleton.mp mem
    exact image_eq_self (toLower_of_ascii ascii).1 (toLower_of_ascii ascii).2
  · have other : image c = if isUnseen c then [] else (image? c).getD [c] := by
      rw [image, if_neg ascii]
    rw [other] at mem
    split at mem
    · cases mem
    next seen =>
      cases found : image? c with
      | some cs =>
        rw [found] at mem
        exact image_eq_self (of_mem_image? found mem).1 (of_mem_image? found mem).2
      | none =>
        rw [found] at mem
        obtain rfl := List.mem_singleton.mp mem
        rw [other, if_neg seen, found]
        rfl

@[simp] theorem mapped_cons (c : Char) (cs : List Char) :
    mapped (c :: cs) = image c ++ mapped cs := rfl

theorem mapped_append (cs ds : List Char) : mapped (cs ++ ds) = mapped cs ++ mapped ds :=
  List.flatMap_append

/-- A name in ASCII only loses its capitals. -/
theorem mapped_of_ascii {cs : List Char} (ascii : ∀ c ∈ cs, c.toNat < 128) :
    mapped cs = cs.map Char.toLower := by
  induction cs with
  | nil => rfl
  | cons c cs ih =>
    obtain ⟨first, others⟩ := List.forall_mem_cons.mp ascii
    rw [mapped_cons, image_of_ascii first, ih others]
    rfl

theorem mapped_eq_self {cs : List Char} (settled : ∀ c ∈ cs, image c = [c]) : mapped cs = cs := by
  induction cs with
  | nil => rfl
  | cons c cs ih =>
    obtain ⟨first, others⟩ := List.forall_mem_cons.mp settled
    rw [mapped_cons, first, ih others]
    rfl

/-- What a name means, means itself. -/
theorem mapped_mapped (cs : List Char) : mapped (mapped cs) = mapped cs := by
  refine mapped_eq_self fun d mem => ?_
  obtain ⟨c, -, part⟩ := List.mem_flatMap.mp mem
  exact image_of_mem_image part

theorem image_of_isUnseen (hidden : isUnseen c = true) : image c = [] := by
  have outside : unseen.all (fun run => decide (128 ≤ run.1)) = true := by decide
  obtain ⟨⟨first, last⟩, run, inside⟩ := List.any_eq_true.mp hidden
  have bound := of_decide_eq_true (List.all_eq_true.mp outside _ run)
  have after := of_decide_eq_true (Bool.and_eq_true_iff.mp inside).1
  rw [image, if_neg (by omega), if_pos hidden]

/-- A character that nobody sees makes no difference. -/
theorem mapped_append_cons_of_isUnseen (hidden : isUnseen c = true) (cs ds : List Char) :
    mapped (cs ++ c :: ds) = mapped (cs ++ ds) := by
  rw [mapped_append, mapped_append, mapped_cons, image_of_isUnseen hidden, List.nil_append]

example : mapped "a\u00adb".toList = ['a', 'b'] := by rfl

end Domain

namespace Host

variable {cs cs' : List Char} {s s' name : String}

theorem ofSpecial_eq (plain : bracketed cs = none) (text : Percent.decodeText? cs = some s) :
    ofSpecial cs = ofName (Domain.mapped s.toList) := by
  rw [ofSpecial, plain, text]

/-- Names that mean the same in ASCII are the same host. -/
theorem ofSpecial_congr (plain : bracketed cs = none) (plain' : bracketed cs' = none)
    (text : Percent.decodeText? cs = some s) (text' : Percent.decodeText? cs' = some s')
    (alike : Domain.mapped s.toList = Domain.mapped s'.toList) : ofSpecial cs = ofSpecial cs' := by
  rw [ofSpecial_eq plain text, ofSpecial_eq plain' text', alike]

/-- Fullwidth digits make an address, as those of ASCII do. -/
example : ofSpecial "１２７．１".toList = .ok (.ipv4 0x7f000001) := by rfl

theorem bracketed_ne_domain (cs : List Char) (name : String) :
    bracketed cs ≠ some (.ok (.domain name)) := by
  intro eq
  rw [bracketed.eq_def] at eq
  split at eq
  · split at eq
    · split at eq <;> cases eq
    · cases eq
  · cases eq

theorem exists_ofName_eq (read : ofSpecial cs = .ok (.domain name)) :
    ∃ s : String, ofName (Domain.mapped s.toList) = .ok (.domain name) := by
  rw [ofSpecial] at read
  split at read
  next result inBrackets => exact absurd (read ▸ inBrackets) (bracketed_ne_domain cs name)
  next =>
    split at read
    next => cases read
    next s text => exact ⟨s, read⟩

theorem of_ofName_eq_domain (read : ofName cs = .ok (.domain name)) :
    name = String.ofList cs ∧ cs.any isForbiddenInDomain = false := by
  rw [ofName] at read
  split at read
  next => cases read
  next allowed =>
    split at read
    next => cases read
    next =>
      split at read
      next => split at read <;> cases read
      next =>
        cases read
        exact ⟨rfl, Bool.eq_false_iff.mpr allowed⟩

/-- A text without the characters that no domain name may hold is no address in brackets and has no
escapes. -/
theorem ofSpecial_of_allowed (allowed : cs.any isForbiddenInDomain = false) :
    ofSpecial cs = ofName (Domain.mapped cs) := by
  have absent (c : Char) (forbidden : isForbiddenInDomain c = true) : c ∉ cs := fun mem =>
    List.any_eq_false.mp allowed c mem forbidden
  have plain : bracketed cs = none := by
    rw [bracketed.eq_def]
    split
    next rest => exact absurd List.mem_cons_self (absent '[' (by decide))
    next => rfl
  have text : Percent.decodeText? cs = some (String.ofList cs) := by
    rw [Percent.decodeText?_eq_some_iff, String.toList_ofList, Percent.decode_eq_utf8_iff]
    intro high low part
    exact absurd (part.subset List.mem_cons_self) (absent '%' (by decide))
  rw [ofSpecial_eq plain text, String.toList_ofList]

/-- The domain that was read is read as itself. -/
theorem ofSpecial_of_domain (read : ofSpecial cs = .ok (.domain name)) :
    ofSpecial name.toList = .ok (.domain name) := by
  obtain ⟨s, read⟩ := exists_ofName_eq read
  obtain ⟨rfl, allowed⟩ := of_ofName_eq_domain read
  rw [String.toList_ofList, ofSpecial_of_allowed allowed, Domain.mapped_mapped, read]

end Host

end SessionDirectory.Url
