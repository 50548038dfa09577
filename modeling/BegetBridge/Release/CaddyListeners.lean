import BegetBridge.Core.Text

/-!
# The listeners of a dedicated host

The socket tables of the kernel are read row by row. What listens is on a loopback address, is the public listener of
Caddy, or is the shell of root.

## Main definitions

* `SocketTable`, `validateCleanCaddyHostListeners`: the tables, and how they are examined
* `Socket`, `socketOf`: what a row says, its address octet by octet
* `Allowed`, `Public`: the sockets that may listen

## Main results

* `examine_spec`: what is known of a row that is accepted
* `listeners_sound`: what is known of tables that are accepted
-/

namespace BegetBridge.CaddyHost

open Core

/-! ## The tables -/

inductive SocketTable
  | tcp
  | tcp6
  | udp
  | udp6
  deriving DecidableEq

namespace SocketTable

/-- The tables, in the order in which they are examined. -/
def all : List SocketTable := [.tcp, .tcp6, .udp, .udp6]

/-- How many digits an address has. -/
def width : SocketTable → Nat
  | .tcp | .udp => 8
  | .tcp6 | .udp6 => 32

/-- `name.startsWith("tcp")` -/
def isTcp : SocketTable → Bool
  | .tcp | .tcp6 => true
  | .udp | .udp6 => false

/-- The state of a socket that listens, or that is not connected. -/
def listening (table : SocketTable) : List Char := if table.isTcp then ['0', 'A'] else ['0', '7']

end SocketTable

/-- `text.trim()` -/
def trim (text : List Char) : List Char := ((text.dropWhile isSpace).reverse.dropWhile isSpace).reverse

/-- `/^[0-9A-F]$/i` -/
def hexDigit (c : Char) : Bool := c.isDigit || ('A' ≤ c && c ≤ 'F') || ('a' ≤ c && c ≤ 'f')

/-- `text.toUpperCase()`, of digits. -/
def upper (text : List Char) : List Char := text.map Char.toUpper

def hexValue (c : Char) : Nat := if c.isDigit then c.toNat - '0'.toNat else c.toUpper.toNat - 'A'.toNat + 10

/-- `parseInt(text, 16)` -/
def hexNumber (text : List Char) : Nat := text.foldl (fun n c => 16 * n + hexValue c) 0

/-- `Number(text)`, of digits. A number that is not safe is compared with none that is. -/
def decimalNumber (text : List Char) : Nat := text.foldl (fun n c => 10 * n + (c.toNat - '0'.toNat)) 0

/-- `/^\d+$/` -/
def digits (text : List Char) : Bool := !text.isEmpty && text.all Char.isDigit

/-- `/^\s*sl\s+local_address\s+/` -/
def headed (line : List Char) : Bool :=
  match (line.dropWhile isSpace) with
  | 's' :: 'l' :: c :: rest =>
    let rest := rest.dropWhile isSpace
    isSpace c && "local_address".toList.isPrefixOf rest && ((rest.drop 13).head?.elim false isSpace)
  | _ => false

/-- A row, by the fields that are looked at. -/
structure Row where
  address : List Char
  port : List Char
  state : List Char
  uid : List Char
  inode : List Char
  deriving DecidableEq

/-- `line.trim().split(/\s+/)` -/
def fieldsOf (line : List Char) : List (List Char) := (words (String.ofList line)).map String.toList

/-- The row of a line. -/
def rowOf (table : SocketTable) (line : List Char) : Row :=
  let fields := fieldsOf line
  let socket := fields.getD 1 []
  ⟨upper (socket.take table.width), socket.drop (socket.length - 4), upper (fields.getD 3 []), fields.getD 7 [],
    fields.getD 9 []⟩

/-- `new RegExp("^[0-9A-F]{width}:[0-9A-F]{4}$", "i").test(socket)` -/
def socketText (width : Nat) (socket : List Char) : Bool :=
  socket.length == width + 5 && (socket.take width).all hexDigit && socket[width]? == some ':' &&
    (socket.drop (width + 1)).all hexDigit

/-- The fields of a row are well formed. -/
def wellFormed (table : SocketTable) (line : List Char) : Bool :=
  let fields := fieldsOf line
  let number := fields.getD 0 []
  let state := fields.getD 3 []
  decide (10 ≤ fields.length) && digits number.dropLast && number.getLast? == some ':' &&
    socketText table.width (fields.getD 1 []) && state.length == 2 && state.all hexDigit &&
    digits (fields.getD 7 []) && digits (fields.getD 9 [])

def check (ok : Bool) (reason : String) : Except String Unit :=
  if ok then .ok () else .error ("Clean Caddy host inventory: " ++ reason)

/-- A socket of the inventory. -/
structure InventoryEntry where
  table : SocketTable
  address : List Char
  port : Nat
  uid : Nat
  inode : List Char
  deriving DecidableEq

section Examination

variable (publicKernelInode : List Char) (ownerUid : Nat)

/-- The address is a loopback one. -/
def loopback (table : SocketTable) (address : List Char) : Bool :=
  if table.width = 8 then ['7', 'F'].isSuffixOf address else address == "00000000000000000000000001000000".toList

/-- The address is that of all interfaces. -/
def wildcard (table : SocketTable) (address : List Char) : Bool := address == List.replicate table.width '0'

/-- A row that listens: whether it is the public listener. -/
def examineRow (table : SocketTable) (row : Row) : Except String Bool := do
  let port := hexNumber row.port
  let uid := decimalNumber row.uid
  if loopback table row.address then
    check (decide (port ∉ [80, 443])) "alternate loopback HTTP/TLS listener"
    pure false
  else if table.isTcp && port == 443 then
    check (wildcard table row.address && row.inode == publicKernelInode && uid == ownerUid)
      "public TLS listener differs from bound Caddy"
    pure true
  else
    check (table.isTcp && port == 22 && uid == 0) "unsupported non-loopback TCP or UDP listener"
    pure false

/-- One line: the inventory, and how many public listeners there are. -/
def examine (table : SocketTable) (line : List Char) (seen : List InventoryEntry × Nat) :
    Except String (List InventoryEntry × Nat) := do
  if (trim line).isEmpty then pure seen
  else
    check (wellFormed table line) "invalid socket table row"
    let row := rowOf table line
    if row.state ≠ table.listening then pure seen
    else
      let isPublic ← examineRow publicKernelInode ownerUid table row
      pure (seen.1 ++ [⟨table, row.address, hexNumber row.port, decimalNumber row.uid, row.inode⟩],
        seen.2 + if isPublic then 1 else 0)

def examineLines (table : SocketTable) : List (List Char) → List InventoryEntry × Nat →
    Except String (List InventoryEntry × Nat)
  | [], seen => pure seen
  | line :: lines, seen => do
    let seen ← examine publicKernelInode ownerUid table line seen
    examineLines table lines seen

/-- The lines of a table. -/
def linesOf (output : String) : List (List Char) := (trim output.toList).splitOn '\n'

/-- The rows of a table, after its header. -/
def rowsOf (output : String) : List (List Char) := (linesOf output).tail

def examineTables (outputs : SocketTable → String) : List SocketTable → List InventoryEntry × Nat →
    Except String (List InventoryEntry × Nat)
  | [], seen => pure seen
  | table :: tables, seen => do
    check (decide (utf16Length (outputs table) ≤ 1024 * 1024)) "socket table unavailable"
    check (((linesOf (outputs table)).head?).elim false headed) "unknown socket table format"
    let seen ← examineLines publicKernelInode ownerUid table (rowsOf (outputs table)) seen
    examineTables outputs tables seen

/-- `/^[1-9][0-9]*$/` -/
def positiveDigits (text : List Char) : Bool := digits text && text.head? != some '0'

/-- `validateCleanCaddyHostListeners({ tcp, tcp6, udp, udp6, publicKernelInode, ownerUid })`: what is digested, before it
is sorted. -/
def validateCleanCaddyHostListeners (outputs : SocketTable → String) : Except String (List InventoryEntry) := do
  check (positiveDigits publicKernelInode && decide (0 < ownerUid) && decide (ownerUid < 2 ^ 53))
    "bound Caddy listener required"
  let seen ← examineTables publicKernelInode ownerUid outputs SocketTable.all ([], 0)
  check (seen.2 == 1) "exactly one bound public TLS listener required"
  pure seen.1

end Examination

/-! ## What a row says -/

/-- A socket that listens, or that is not connected. -/
structure Socket where
  tcp : Bool
  octets : List Nat
  port : Nat
  uid : Nat
  inode : List Char
  deriving DecidableEq

/-- The octets of an address: the words are little-endian. -/
def octets : List Char → List Nat
  | a :: b :: c :: d :: e :: f :: g :: h :: rest =>
    [hexNumber [g, h], hexNumber [e, f], hexNumber [c, d], hexNumber [a, b]] ++ octets rest
  | _ => []

/-- The socket of a line, if it listens or is not connected. -/
def socketOf (table : SocketTable) (line : List Char) : Option Socket :=
  let row := rowOf table line
  if (trim line).isEmpty then none
  else if row.state = table.listening then
    some ⟨table.isTcp, octets row.address, hexNumber row.port, decimalNumber row.uid, row.inode⟩
  else none

/-- An address of `127.0.0.0/8`, or `::1`. -/
def Loopback (address : List Nat) : Prop :=
  (address.length = 4 ∧ address.head? = some 127) ∨ address = List.replicate 15 0 ++ [1]

/-- The address of all interfaces. -/
def Wildcard (address : List Nat) : Prop := ∀ octet ∈ address, octet = 0

/-- The public listener: on all interfaces, with the inode and of the user that are bound. -/
def Public (publicKernelInode : List Char) (ownerUid : Nat) (s : Socket) : Prop :=
  s.tcp = true ∧ Wildcard s.octets ∧ s.port = 443 ∧ s.inode = publicKernelInode ∧ s.uid = ownerUid

instance {address : List Nat} : Decidable (Wildcard address) :=
  inferInstanceAs (Decidable (∀ octet ∈ address, octet = 0))

instance {publicKernelInode : List Char} {ownerUid : Nat} {s : Socket} : Decidable (Public publicKernelInode ownerUid s) :=
  inferInstanceAs (Decidable (_ ∧ _ ∧ _ ∧ _ ∧ _))

/-- A socket that may listen. -/
def Allowed (publicKernelInode : List Char) (ownerUid : Nat) (s : Socket) : Prop :=
  (Loopback s.octets ∧ s.port ≠ 80 ∧ s.port ≠ 443) ∨ Public publicKernelInode ownerUid s ∨
    (s.tcp = true ∧ s.port = 22 ∧ s.uid = 0)

/-! ## What is known of a row -/

section Rows

variable {publicKernelInode : List Char} {ownerUid : Nat} {table : SocketTable} {line : List Char}

theorem check_ok {ok : Bool} {reason : String} {u : Unit} (h : check ok reason = .ok u) : ok = true := by
  unfold check at h
  split at h
  · next hok => exact hok
  · cases h

theorem bind_ok {α β ε : Type} {x : Except ε α} {f : α → Except ε β} {b : β} (h : x >>= f = .ok b) :
    ∃ a, x = .ok a ∧ f a = .ok b := by
  cases x with
  | error e => cases h
  | ok a => exact ⟨a, rfl, h⟩

/-- The address of a well-formed row has all its digits. -/
theorem address_length (h : wellFormed table line = true) : (rowOf table line).address.length = table.width := by
  have hsocket : socketText table.width ((fieldsOf line).getD 1 []) = true := by
    simp only [wellFormed, Bool.and_eq_true] at h
    exact h.1.1.1.1.2
  have hlength : ((fieldsOf line).getD 1 []).length = table.width + 5 := by
    simp only [socketText, Bool.and_eq_true, beq_iff_eq] at hsocket
    exact hsocket.1.1.1
  rw [rowOf, upper, List.length_map, List.length_take, hlength]
  omega

/-- **A loopback address is one.** The last digits of an address of four octets are those of its first octet. -/
theorem loopback_sound {address : List Char} (hlength : address.length = table.width)
    (h : loopback table address = true) : Loopback (octets address) := by
  unfold loopback at h
  split at h
  · next hwidth =>
    rw [hwidth] at hlength
    match address, hlength with
    | [a, b, c, d, e, f, g, h'], _ =>
      obtain ⟨t, ht⟩ := List.isSuffixOf_iff_suffix.mp h
      have hreverse := congrArg List.reverse ht
      rw [List.reverse_append] at hreverse
      obtain ⟨rfl, hrest⟩ := List.cons.inj hreverse
      obtain ⟨rfl, -⟩ := List.cons.inj hrest
      exact .inl ⟨rfl, rfl⟩
  · rw [eq_of_beq h]
    exact .inr (by decide)

theorem wildcard_sound {address : List Char} (h : wildcard table address = true) : Wildcard (octets address) := by
  rw [eq_of_beq h]
  cases table <;> decide

/-- A row that is accepted. -/
theorem examineRow_spec {row : Row} {isPublic : Bool} (hlength : row.address.length = table.width)
    (h : examineRow publicKernelInode ownerUid table row = .ok isPublic) :
    let s : Socket := ⟨table.isTcp, octets row.address, hexNumber row.port, decimalNumber row.uid, row.inode⟩
    Allowed publicKernelInode ownerUid s ∧ (isPublic = true ↔ Public publicKernelInode ownerUid s) := by
  intro s
  unfold examineRow at h
  dsimp only at h
  split at h
  · next hloopback =>
    obtain ⟨_, hport, h⟩ := bind_ok h
    obtain rfl := Except.ok.inj h
    have hports : hexNumber row.port ≠ 80 ∧ hexNumber row.port ≠ 443 := by simpa using check_ok hport
    refine ⟨.inl ⟨loopback_sound hlength hloopback, hports⟩, nofun, ?_⟩
    exact fun hpublic => absurd hpublic.2.2.1 hports.2
  split at h
  · next htls =>
    obtain ⟨_, hbound, h⟩ := bind_ok h
    obtain rfl := Except.ok.inj h
    simp only [Bool.and_eq_true, beq_iff_eq] at htls
    have hbound := check_ok hbound
    simp only [Bool.and_eq_true, beq_iff_eq] at hbound
    have hpublic : Public publicKernelInode ownerUid s :=
      ⟨htls.1, wildcard_sound hbound.1.1, htls.2, hbound.1.2, hbound.2⟩
    exact ⟨.inr (.inl hpublic), fun _ => hpublic, fun _ => rfl⟩
  · obtain ⟨_, hshell, h⟩ := bind_ok h
    obtain rfl := Except.ok.inj h
    have hshell := check_ok hshell
    simp only [Bool.and_eq_true, beq_iff_eq] at hshell
    refine ⟨.inr (.inr ⟨hshell.1.1, hshell.1.2, hshell.2⟩), nofun, fun hpublic => ?_⟩
    have hport : hexNumber row.port = 443 := hpublic.2.2.1
    omega

/-- **What is known of a line that is accepted.** -/
theorem examine_spec {seen seen' : List InventoryEntry × Nat}
    (h : examine publicKernelInode ownerUid table line seen = .ok seen') :
    (∀ s, socketOf table line = some s → Allowed publicKernelInode ownerUid s) ∧
      seen'.2 = seen.2 + ((socketOf table line).toList.countP fun s => decide (Public publicKernelInode ownerUid s)) := by
  unfold examine at h
  split at h
  · next hblank =>
    obtain rfl := Except.ok.inj h
    have hnone : socketOf table line = none := by simp [socketOf, hblank]
    rw [hnone]
    exact ⟨nofun, rfl⟩
  next hblank =>
  obtain ⟨_, hformed, h⟩ := bind_ok h
  dsimp only at h
  split at h
  · next hstate =>
    obtain rfl := Except.ok.inj h
    have hnone : socketOf table line = none := by simp [socketOf, hblank, hstate]
    rw [hnone]
    exact ⟨nofun, rfl⟩
  next hstate =>
  obtain ⟨isPublic, hrow, h⟩ := bind_ok h
  obtain rfl := Except.ok.inj h
  obtain ⟨hallowed, hpublic⟩ := examineRow_spec (address_length (check_ok hformed)) hrow
  have hsome : socketOf table line = some ⟨table.isTcp, octets (rowOf table line).address,
      hexNumber (rowOf table line).port, decimalNumber (rowOf table line).uid, (rowOf table line).inode⟩ := by
    simp [socketOf, hblank, not_not.mp hstate]
  rw [hsome]
  refine ⟨fun s hs => Option.some.inj hs ▸ hallowed, ?_⟩
  rw [Option.toList_some, List.countP_singleton]
  simp only [← hpublic, decide_eq_true_eq]

/-- The lines, by induction on them. -/
theorem examineLines_spec {lines : List (List Char)} {seen seen' : List InventoryEntry × Nat}
    (h : examineLines publicKernelInode ownerUid table lines seen = .ok seen') :
    (∀ line ∈ lines, ∀ s, socketOf table line = some s → Allowed publicKernelInode ownerUid s) ∧
      seen'.2 = seen.2 + ((lines.filterMap (socketOf table)).countP fun s => decide (Public publicKernelInode ownerUid s)) := by
  induction lines generalizing seen with
  | nil =>
    obtain rfl := Except.ok.inj h
    exact ⟨fun _ hline => absurd hline List.not_mem_nil, rfl⟩
  | cons line lines ih =>
    obtain ⟨seen₁, hline, h⟩ := bind_ok h
    obtain ⟨hallowed, hcount⟩ := examine_spec hline
    obtain ⟨hrest, hcounts⟩ := ih h
    refine ⟨fun l hl => (List.mem_cons.mp hl).elim (fun he => he ▸ hallowed) (hrest l), ?_⟩
    rw [hcounts, hcount, Nat.add_assoc]
    congr 1
    cases hsocket : socketOf table line with
    | none => simp [hsocket]
    | some s => simp [hsocket, List.countP_cons, Nat.add_comm]

/-- The sockets of the tables. -/
def socketsOf (outputs : SocketTable → String) (tables : List SocketTable) : List Socket :=
  tables.flatMap fun table => (rowsOf (outputs table)).filterMap (socketOf table)

theorem examineTables_spec {outputs : SocketTable → String} {tables : List SocketTable}
    {seen seen' : List InventoryEntry × Nat}
    (h : examineTables publicKernelInode ownerUid outputs tables seen = .ok seen') :
    (∀ table ∈ tables, ∀ line ∈ rowsOf (outputs table), ∀ s, socketOf table line = some s →
        Allowed publicKernelInode ownerUid s) ∧
      seen'.2 = seen.2 + ((socketsOf outputs tables).countP fun s => decide (Public publicKernelInode ownerUid s)) := by
  induction tables generalizing seen with
  | nil =>
    obtain rfl := Except.ok.inj h
    exact ⟨fun _ htable => absurd htable List.not_mem_nil, rfl⟩
  | cons table tables ih =>
    obtain ⟨-, -, h⟩ := bind_ok h
    obtain ⟨-, -, h⟩ := bind_ok h
    obtain ⟨seen₁, hlines, h⟩ := bind_ok h
    obtain ⟨hallowed, hcount⟩ := examineLines_spec hlines
    obtain ⟨hrest, hcounts⟩ := ih h
    refine ⟨fun t ht => (List.mem_cons.mp ht).elim (fun he => he ▸ hallowed) (hrest t), ?_⟩
    have hcons : socketsOf outputs (table :: tables) =
        (rowsOf (outputs table)).filterMap (socketOf table) ++ socketsOf outputs tables := List.flatMap_cons
    rw [hcounts, hcount, hcons, List.countP_append, Nat.add_assoc]

/-- **What is known of tables that are accepted**: every socket that listens may, and one of them is the public
listener. -/
theorem listeners_sound {outputs : SocketTable → String} {inventory : List InventoryEntry}
    (h : validateCleanCaddyHostListeners publicKernelInode ownerUid outputs = .ok inventory) :
    (∀ table line s, line ∈ rowsOf (outputs table) → socketOf table line = some s →
        Allowed publicKernelInode ownerUid s) ∧
      ((socketsOf outputs SocketTable.all).countP fun s => decide (Public publicKernelInode ownerUid s)) = 1 := by
  obtain ⟨-, -, h⟩ := bind_ok h
  obtain ⟨seen, htables, h⟩ := bind_ok h
  obtain ⟨_, hone, -⟩ := bind_ok h
  obtain ⟨hallowed, hcount⟩ := examineTables_spec htables
  refine ⟨fun table line s hline hs => hallowed table (by cases table <;> simp [SocketTable.all]) line hline s hs, ?_⟩
  rw [Nat.zero_add] at hcount
  exact hcount.symm.trans (eq_of_beq (check_ok hone))

end Rows

end BegetBridge.CaddyHost
