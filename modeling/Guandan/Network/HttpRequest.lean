import Guandan.Auth.AuthService
import Guandan.Library.Quoted
import Guandan.Network.WebSocketFrame

/-!
# The lengths that clients announce

How `handleClient` of `http_server.cpp` reads a request, and what both servers make room for. A line
is read a byte a call, and a body until it is there or nothing more comes, so that the pieces they
arrive in do not matter. A length that no string can have makes `resize` throw, on a thread where
nothing catches it.
-/

namespace Guandan.Http

open Quoted Round

/-! ### Reading a request -/

/-- The text up to the first line end, without it, and the text behind; `none` where the stream ends
before. -/
def recvLine : Text → Option (Text × Text)
  | [] => none
  | '\r' :: '\n' :: rest => some ([], rest)
  | c :: rest => (recvLine rest).map fun r => (c :: r.1, r.2)

def extractHeaderValue (line : Text) : Text :=
  match line.dropWhile (· != ':') with
  | [] => []
  | _ :: value => value.dropWhile (· == ' ')

/-- `std::stoi`; it throws (`none`) without digits and outside of `int`. -/
def stoi (value : Text) : Option Int :=
  let text := value.dropWhile isSpace
  let negative := ['-'].isPrefixOf text
  let word := (if negative || ['+'].isPrefixOf text then text.tail else text).takeWhile Char.isDigit
  let n : Int := if negative then -(Nat.ofDigitChars 10 word 0 : Int) else Nat.ofDigitChars 10 word 0
  if word.isEmpty ∨ n < -2 ^ 31 ∨ 2 ^ 31 ≤ n then none else some n

/-- What the loop over the header lines keeps. -/
structure Headers where
  incoming : Text
  contentLength : Int := 0
  authorizationHeader : Text := []
  deriving DecidableEq, Repr

def headerName (line : Text) : Text := (line.takeWhile (· != ':')).map Char.toLower

def isContentLength (line : Text) : Bool :=
  line.contains ':' && headerName line == "content-length".toList

def readHeaderLine (h : Headers) (line : Text) : Headers :=
  if isContentLength line then { h with contentLength := (stoi (extractHeaderValue line)).getD 0 }
  else if line.contains ':' && headerName line == "authorization".toList then
    { h with authorizationHeader := extractHeaderValue line }
  else h

/-- One round of the loop; it ends with an empty line or with the stream. -/
def headerRound (h : Headers) : Round Headers Headers :=
  match recvLine h.incoming with
  | none => .done { h with incoming := [] }
  | some (line, rest) =>
    if line.isEmpty then .done { h with incoming := rest }
    else .again (readHeaderLine { h with incoming := rest } line)

/-- `static_cast<size_t>` of an `int`. -/
def toSize (n : Int) : Nat := (n % 2 ^ 64).toNat

/-- The body, and `none` where `resize` throws. -/
def readBody (maxSize : Nat) (h : Headers) : Option Text :=
  if maxSize < toSize h.contentLength then none
  else some (h.incoming.take h.contentLength.toNat)

theorem recvLine_length {text line rest : Text} (h : recvLine text = some (line, rest)) :
    rest.length < text.length := by
  induction text using recvLine.induct generalizing line with
  | case1 => cases h
  | case2 rest' =>
    rw [recvLine] at h
    cases h
    simp only [List.length_cons]
    omega
  | case3 c text hcrlf ih =>
    rw [recvLine] at h
    · obtain ⟨⟨line', rest'⟩, hline, heq⟩ := Option.map_eq_some_iff.1 h
      cases heq
      exact Nat.lt_succ_of_lt (ih hline)
    · exact hcrlf

/-- The lines that the loop goes through: up to an empty one, or all there are. -/
def headerLines (text : Text) : List Text :=
  match _hline : recvLine text with
  | none => []
  | some (line, rest) => if line.isEmpty then [] else line :: headerLines rest
termination_by text.length
decreasing_by exact recvLine_length _hline

/-- The last line that announces a length announces none, or one that is not negative. -/
def LengthAccepted (text : Text) : Prop :=
  ∀ line, ((headerLines text).filter isContentLength).getLast? = some line →
    ∀ n, stoi (extractHeaderValue line) = some n → 0 ≤ n

/-! ### What strings are resized to -/

/-- The size that `handleClient` makes room for. -/
def BodyResized (text : Text) (size : Nat) : Prop :=
  ∃ requestLine rest h, recvLine text = some (requestLine, rest) ∧
    Ends headerRound { incoming := rest } h ∧ size = toSize h.contentLength

/-- `resize` throws before the body is read. -/
def BodyThrown (maxSize : Nat) (text : Text) : Prop :=
  ∃ requestLine rest h, recvLine text = some (requestLine, rest) ∧
    Ends headerRound { incoming := rest } h ∧ readBody maxSize h = none

/-- The size that `readWebSocketMessage` makes room for. -/
def MessageResized (s : Pieces UInt8) (size : Nat) : Prop :=
  ∃ header rest, WebSocket.readHeader s = some (header, rest) ∧ size = header.payloadLen

section Lengths

variable {text : Text} {h h' : Headers}

/-- The length that is kept is that of the last line that announces one. -/
theorem contentLength_foldl (h : Headers) (lines : List Text) :
    (lines.foldl readHeaderLine h).contentLength =
      (((lines.filter isContentLength).getLast?.map fun line =>
        (stoi (extractHeaderValue line)).getD 0).getD h.contentLength) := by
  induction lines using List.reverseRecOn with
  | nil => rfl
  | append_singleton lines line ih =>
    rw [List.foldl_append, List.foldl_cons, List.foldl_nil, List.filter_append, readHeaderLine]
    by_cases hline : isContentLength line = true
    · rw [if_pos hline, List.filter_cons_of_pos hline, List.filter_nil, List.getLast?_concat]
      rfl
    · rw [if_neg hline, List.filter_cons_of_neg hline, List.filter_nil, List.append_nil, ← ih]
      split_ifs <;> rfl

theorem headerLines_none (hline : recvLine text = none) : headerLines text = [] := by
  rw [headerLines]
  split
  · rfl
  · rename_i heq
    rw [hline] at heq
    cases heq

theorem headerLines_some {line rest : Text} (hline : recvLine text = some (line, rest)) :
    headerLines text = if line.isEmpty then [] else line :: headerLines rest := by
  rw [headerLines]
  split
  · rename_i heq
    rw [hline] at heq
    cases heq
  · rename_i heq
    rw [hline] at heq
    cases heq
    rfl

theorem readHeaderLine_incoming (h : Headers) (line : Text) :
    (readHeaderLine h line).incoming = h.incoming := by
  unfold readHeaderLine
  split_ifs <;> rfl

theorem readHeaderLine_contentLength (h : Headers) (rest line : Text) :
    (readHeaderLine { h with incoming := rest } line).contentLength =
      (readHeaderLine h line).contentLength := by
  unfold readHeaderLine
  split_ifs <;> rfl

/-- The loop over the header lines always ends, with what its lines leave behind. -/
theorem headerRound_ends (h : Headers) : ∃ h', Ends headerRound h h' ∧
    h'.contentLength = ((headerLines h.incoming).foldl readHeaderLine h).contentLength := by
  induction hn : h.incoming.length using Nat.strong_induction_on generalizing h with
  | _ n ih =>
    subst hn
    rcases hline : recvLine h.incoming with _ | ⟨line, rest⟩
    · have hround : headerRound h = .done { h with incoming := [] } := by
        rw [headerRound, hline]
      rw [headerLines_none hline]
      exact ⟨_, (ends_done hround).2 rfl, rfl⟩
    rw [headerLines_some hline]
    split_ifs with hempty
    · have hround : headerRound h = .done { h with incoming := rest } := by
        rw [headerRound, hline]
        exact if_pos hempty
      exact ⟨_, (ends_done hround).2 rfl, rfl⟩
    · have hround : headerRound h = .again (readHeaderLine { h with incoming := rest } line) := by
        rw [headerRound, hline]
        exact if_neg hempty
      obtain ⟨h', hends, hlength⟩ := ih rest.length (recvLine_length hline)
        (readHeaderLine { h with incoming := rest } line) (by rw [readHeaderLine_incoming])
      refine ⟨h', (ends_again hround).2 hends, ?_⟩
      rw [hlength, readHeaderLine_incoming, List.foldl_cons, contentLength_foldl,
        contentLength_foldl, readHeaderLine_contentLength]

theorem stoi_bounds {value : Text} {n : Int} (h : stoi value = some n) : -2 ^ 31 ≤ n ∧ n < 2 ^ 31 := by
  simp only [stoi, Option.ite_none_left_eq_some, Option.some_inj] at h
  obtain ⟨hthrows, rfl⟩ := h
  rw [not_or, not_or] at hthrows
  exact ⟨Int.not_lt.1 hthrows.2.1, Int.not_le.1 hthrows.2.2⟩

/-- An `int` becomes a size that a string can have exactly where it is not negative. -/
theorem toSize_le {maxSize : Nat} {n : Int} (hlow : 2 ^ 31 ≤ maxSize) (hhigh : maxSize < 2 ^ 63)
    (hn : -2 ^ 31 ≤ n ∧ n < 2 ^ 31) : toSize n ≤ maxSize ↔ 0 ≤ n := by
  rw [toSize]
  omega

theorem bodyResized_iff {maxSize : Nat} (hlow : 2 ^ 31 ≤ maxSize) (hhigh : maxSize < 2 ^ 63)
    (text : Text) : (∀ size, BodyResized text size → size ≤ maxSize) ↔
      ∀ requestLine rest, recvLine text = some (requestLine, rest) → LengthAccepted rest := by
  have hsize : ∀ rest h, Ends headerRound { incoming := rest } h →
      (toSize h.contentLength ≤ maxSize ↔ LengthAccepted rest) := by
    intro rest h hends
    obtain ⟨h', hends', hlength⟩ := headerRound_ends { incoming := rest }
    rw [hends.unique hends', hlength, contentLength_foldl, LengthAccepted]
    rcases hlast : ((headerLines rest).filter isContentLength).getLast? with _ | line
    · simp [toSize]
    · rw [Option.map_some, Option.getD_some]
      simp only [Option.some_inj, forall_eq']
      rcases hstoi : stoi (extractHeaderValue line) with _ | n
      · simp [toSize]
      · rw [Option.getD_some, toSize_le hlow hhigh (stoi_bounds hstoi)]
        simp
  constructor
  · intro hall requestLine rest hline
    obtain ⟨h, hends, -⟩ := headerRound_ends { incoming := rest }
    exact (hsize rest h hends).1 (hall _ ⟨requestLine, rest, h, hline, hends, rfl⟩)
  · rintro hall size ⟨requestLine, rest, h, hline, hends, rfl⟩
    exact (hsize rest h hends).2 (hall requestLine rest hline)

/-- The eight bytes of the longest form, and nothing else, announce what no string can hold. -/
theorem messageResized_iff {maxSize : Nat} (hlow : 2 ^ 31 ≤ maxSize) (s : Pieces UInt8) :
    (∀ size, MessageResized s size → size ≤ maxSize) ↔
      WebSocket.readHeader s = none ∨ (s.flatten.getD 1 0 &&& 0x7F).toNat ≠ 127 ∨
        Bytes.toNumber ((s.flatten.drop 2).take 8) ≤ maxSize := by
  rcases hread : WebSocket.readHeader s with _ | ⟨header, rest⟩
  · exact iff_of_true (by simp [MessageResized, hread]) (.inl rfl)
  have hsize : (∀ size, MessageResized s size → size ≤ maxSize) ↔ header.payloadLen ≤ maxSize := by
    simp [MessageResized, hread]
  rw [hsize]
  simp only [reduceCtorEq, false_or]
  rw [WebSocket.readHeader] at hread
  simp only [Option.bind_eq_bind, Option.bind_eq_some_iff, Prod.exists] at hread
  obtain ⟨first, s₁, hfirst, payloadLen, s₂, hlength, mask, s₃, -, heq⟩ := hread
  cases heq
  obtain ⟨-, hfirst, hrest⟩ := Pieces.recvExact_some hfirst
  have hsecond : first.getD 1 0 = s.flatten.getD 1 0 := by
    rw [hfirst, List.getD_eq_getElem?_getD, List.getD_eq_getElem?_getD,
      List.getElem?_take_of_lt (by decide)]
  have hshort : (s.flatten.getD 1 0 &&& 0x7F).toNat < 128 := by
    rw [UInt8.toNat_and]
    exact Nat.and_lt_two_pow (n := 7) _ (by decide)
  rw [hsecond, WebSocket.readLength] at hlength
  generalize (s.flatten.getD 1 0 &&& 0x7F).toNat = short at hshort hlength ⊢
  split_ifs at hlength with hsixteen hsixtyFour
  · obtain ⟨⟨ext, s₄⟩, hext, heq⟩ := Option.map_eq_some_iff.1 hlength
    cases heq
    obtain ⟨hwidth, -, -⟩ := Pieces.recvExact_some hext
    have hlt := Bytes.toNumber_lt ext
    rw [hwidth] at hlt
    exact iff_of_true (by dsimp only; omega) (.inl (by omega))
  · obtain ⟨⟨ext, s₄⟩, hext, heq⟩ := Option.map_eq_some_iff.1 hlength
    cases heq
    obtain ⟨-, hbytes, -⟩ := Pieces.recvExact_some hext
    rw [← hrest, ← hbytes, or_iff_right (not_not.2 hsixtyFour)]
  · cases hlength
    exact iff_of_true (by dsimp only; omega) (.inl hsixtyFour)

/-- The body is thrown at where no string can hold it. -/
theorem bodyThrown_iff {maxSize : Nat} :
    BodyThrown maxSize text ↔ ∃ size, BodyResized text size ∧ maxSize < size := by
  have hnone : ∀ h : Headers, readBody maxSize h = none ↔ maxSize < toSize h.contentLength := by
    intro h
    rw [readBody]
    split_ifs with hlarge
    · exact iff_of_true rfl hlarge
    · exact iff_of_false (by simp) hlarge
  constructor
  · rintro ⟨requestLine, rest, h, hline, hends, hthrown⟩
    exact ⟨_, ⟨requestLine, rest, h, hline, hends, rfl⟩, (hnone h).1 hthrown⟩
  · rintro ⟨size, ⟨requestLine, rest, h, hline, hends, rfl⟩, hlarge⟩
    exact ⟨requestLine, rest, h, hline, hends, (hnone h).2 hlarge⟩

/-- So is a frame. -/
theorem thrown_iff {maxSize : Nat} {s : Pieces UInt8} :
    WebSocket.readWebSocketMessage maxSize s = .thrown ↔
      ∃ size, MessageResized s size ∧ maxSize < size := by
  rw [WebSocket.readWebSocketMessage]
  rcases hread : WebSocket.readHeader s with _ | ⟨header, rest⟩
  · simp [MessageResized, hread]
  · have hsize : (∃ size, MessageResized s size ∧ maxSize < size) ↔ maxSize < header.payloadLen := by
      simp [MessageResized, hread]
    rw [hsize]
    dsimp only
    by_cases hlarge : maxSize < header.payloadLen
    · rw [if_pos hlarge]
      exact iff_of_true rfl hlarge
    rw [if_neg hlarge]
    refine iff_of_false ?_ hlarge
    by_cases hcast : 2 ^ 31 ≤ header.payloadLen
    · rw [if_pos hcast]
      simp
    · rw [if_neg hcast]
      rcases Pieces.recvAll header.payloadLen rest with _ | ⟨message, s'⟩ <;> simp

/-- Neither server makes room for more than a string can hold exactly where the last length of a
request is not negative and that of a frame is no longer than a string; and where one does, `resize`
throws. -/
theorem resize_iff {maxSize : Nat} (hlow : 2 ^ 31 ≤ maxSize) (hhigh : maxSize < 2 ^ 63) :
    (∀ text, (∀ size, BodyResized text size → size ≤ maxSize) ↔
      ∀ requestLine rest, recvLine text = some (requestLine, rest) → LengthAccepted rest) ∧
    (∀ s, (∀ size, MessageResized s size → size ≤ maxSize) ↔
      WebSocket.readHeader s = none ∨ (s.flatten.getD 1 0 &&& 0x7F).toNat ≠ 127 ∨
        Bytes.toNumber ((s.flatten.drop 2).take 8) ≤ maxSize) ∧
    (∀ text, BodyThrown maxSize text ↔ ∃ size, BodyResized text size ∧ maxSize < size) ∧
    ∀ s, WebSocket.readWebSocketMessage maxSize s = .thrown ↔
      ∃ size, MessageResized s size ∧ maxSize < size :=
  ⟨bodyResized_iff hlow hhigh, messageResized_iff hlow, fun _ => bodyThrown_iff, fun _ => thrown_iff⟩

theorem resize_iff_short :
    (∀ size, BodyResized "POST /api/login HTTP/1.1\r\nContent-Length: 2\r\n\r\nhi".toList size →
      size ≤ 2 ^ 63 - 1) ∧
    ∀ size, MessageResized [[0x81, 0x82, 1, 2, 3, 4, 0x49, 0x6B]] size → size ≤ 2 ^ 63 - 1 := by
  have hboth := @resize_iff (2 ^ 63 - 1) (by decide) (by decide)
  refine ⟨(hboth.1 _).2 fun requestLine rest hline => ?_, (hboth.2.1 _).2 (.inr (.inl (by decide)))⟩
  have hread : recvLine "POST /api/login HTTP/1.1\r\nContent-Length: 2\r\n\r\nhi".toList =
      some ("POST /api/login HTTP/1.1".toList, "Content-Length: 2\r\n\r\nhi".toList) := by decide
  have hlines : headerLines "Content-Length: 2\r\n\r\nhi".toList = ["Content-Length: 2".toList] := by
    have hfirst : recvLine "Content-Length: 2\r\n\r\nhi".toList =
        some ("Content-Length: 2".toList, "\r\nhi".toList) := by decide
    have hsecond : recvLine "\r\nhi".toList = some ([], "hi".toList) := by decide
    rw [headerLines_some hfirst, headerLines_some hsecond]
    decide
  cases hread.symm.trans hline
  intro line hlast n hn
  rw [hlines] at hlast
  cases hlast
  cases hn
  decide

/-- A request that announces a negative length makes the server stop. -/
theorem body_thrown : ∃ size, BodyResized
    "POST /api/login HTTP/1.1\r\nContent-Length: -1\r\n\r\n".toList size ∧ 2 ^ 63 - 1 < size :=
  ⟨2 ^ 64 - 1, ⟨"POST /api/login HTTP/1.1".toList, "Content-Length: -1\r\n\r\n".toList,
    { incoming := [], contentLength := -1 }, by decide, ⟨2, by decide⟩, by decide⟩, by decide⟩

end Lengths

end Guandan.Http
