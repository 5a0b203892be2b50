import Layad.Daemon.Exit
import Layad.Daemon.FailFast
import Layad.Daemon.Surface
import Layad.Forwarding
import Layad.Joint.Agreement
import Layad.Joint.Answers
import Layad.Joint.Readiness
import Layad.Python.Serve
import Layad.Replies
import Layad.RequestLanguage
import Layad.Service.Label
import Layad.Service.Ownership
import Layad.Service.Startup
import Layad.SystemOne
import Layad.Validation
import Layad.Worker.Admission
import Layad.Worker.Cancellation
import Layad.Worker.Classification
import Layad.Worker.Diagnosis
import Layad.Worker.Finish
import Layad.Worker.Notification
import Layad.Worker.Publication
import Layad.Worker.Reading
import Layad.Worker.Reaping
import Layad.Worker.Refusal
import Layad.Worker.Shutdown
import Layad.Worker.Waiting
