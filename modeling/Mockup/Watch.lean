import Mockup.Path
import Mockup.Number

namespace Mockup

structure FileEvent where
  path : String
  isDirectory : Bool := false
  time : Number

/-- What is watched, how long events are held back, and when the last one counted. -/
structure Watch where
  target : Option Place := none
  debounce : Number := .real (.ofInt 1)
  last : Number := .real (.ofInt 0)

namespace Watch

def watchedEnding : String := ".json"

def isEligible (w : Watch) (e : FileEvent) : Bool :=
  !e.isDirectory && e.path.endsWith watchedEnding &&
    w.target.all fun target => (Path.ofText e.path).place = target

def isEarly (w : Watch) (e : FileEvent) : Number.Result Bool := do
  return (← e.time.sub w.last).lt w.debounce

def observe (w : Watch) (e : FileEvent) : Number.Result (Watch × Bool) := do
  if !w.isEligible e then return (w, false)
  if ← w.isEarly e then return (w, false)
  return ({ w with last := e.time }, true)

def notice (e : FileEvent) : String := "\n🔄 File changed: " ++ e.path

end Watch

end Mockup
