import Hexagony.Command.Run

namespace Hexagony.Command

def streamEntry (error : StreamError) : Log.Entry :=
  ⟨.warn, "dropping program output after write error: " ++ error.message⟩

def streamLog (before after : Stream) : List Log.Entry :=
  match before.failure, after.failure with
  | none, some error => [streamEntry error]
  | _, _ => []

def written (before after : Output) : String :=
  String.ofList (after.written.toList.drop before.written.length)

def stepsLog (stream : Stream) : List Interpreter → List Log.Entry
  | [] => []
  | state :: rest =>
    let sent := stream.sendAll (written state.machine.output state.step.machine.output)
    state.traceEntry :: streamLog stream sent ++ stepsLog sent rest

def finishedEntry (path : String) (finished : Interpreter) : Log.Entry :=
  ⟨.debug, path ++ " finished as " ++ finished.status.name ++ "\n" ++ finished.machine.memory.text⟩

def runLog (world : World) (path : String) (options : RunOptions) (stream : Stream) :
    List Log.Entry :=
  match loadProgram world path options with
  | .error _ => []
  | .ok interpreter =>
    stepsLog stream (Clocked.runPath interpreter) ++ [finishedEntry path interpreter.run]

-- A program that can be read is compiled, whatever fails later.
def compileLog (world : World) (path : String) : List Log.Entry :=
  match world.readSource path with
  | .error _ => []
  | .ok source => Scaffold.compileLog (Grid.parse source)

def replayLog (world : World) (path : String) (fills : List Char) (options : RunOptions)
    (stream : Stream) : List Log.Entry :=
  compileLog world path ++
    match replay world path fills options with
    | .error _ => []
    | .ok (_, text) => streamLog stream (stream.sendAll text)

end Hexagony.Command
