import FileBroker.Text.Scan

namespace FileBroker.Toml.Moment

def daysIn (year month : Nat) : Nat :=
  if month = 2 then
    if year % 4 = 0 ∧ (year % 100 ≠ 0 ∨ year % 400 = 0) then 29 else 28
  else if month = 4 ∨ month = 6 ∨ month = 9 ∨ month = 11 then 30
  else 31

def digits (n : Nat) : Scan (List Char) :=
  Scan.take n Char.isDigit

def date : Scan (List Char) := do
  let year ← digits 4
  Scan.expect '-'
  let month ← digits 2
  Scan.expect '-'
  let day ← digits 2
  let (y, m, d) := (Scan.number 10 year, Scan.number 10 month, Scan.number 10 day)
  guard (1 ≤ m ∧ m ≤ 12 ∧ 1 ≤ d ∧ d ≤ daysIn y m)
  return year ++ '-' :: month ++ '-' :: day

-- Nine places of a second count, and zeros at the end do not.
def fraction (places : List Char) : List Char :=
  match ((places.take 9).reverse.dropWhile (· = '0')).reverse with
  | []     => []
  | places => '.' :: places

def time : Scan (List Char) := do
  let hour ← digits 2
  Scan.expect ':'
  let minute ← digits 2
  Scan.expect ':'
  let second ← digits 2
  guard (Scan.number 10 hour < 24 ∧ Scan.number 10 minute < 60 ∧ Scan.number 10 second ≤ 60)
  let places ← if ← Scan.accept '.' then Scan.span1 Char.isDigit else pure []
  return hour ++ ':' :: minute ++ ':' :: second ++ fraction places

-- How far local time is ahead. No difference has one form only.
def offset : Scan (List Char) := do
  match ← Scan.peek? with
  | none => return []
  | some c =>
    let _ ← Scan.next
    if c = 'Z' ∨ c = 'z' then return ['Z']
    guard (c = '+' ∨ c = '-')
    let hour ← digits 2
    Scan.expect ':'
    let minute ← digits 2
    let (h, m) := (Scan.number 10 hour, Scan.number 10 minute)
    guard (h < 24 ∧ m < 60)
    return (if h = 0 ∧ m = 0 then '+' else c) :: hour ++ ':' :: minute

def moment : Scan (List Char) := do
  let text ← get
  if text[2]? = some ':' then time else
  let day ← date
  if ← Scan.atEnd then return day
  let separator ← Scan.next
  guard (separator = 'T' ∨ separator = 't' ∨ separator = ' ')
  let hour ← time
  let ahead ← offset
  return day ++ 'T' :: hour ++ ahead

def canonical? (text : List Char) : Option (List Char) :=
  Scan.all? moment text

end FileBroker.Toml.Moment
