import DeviceMessaging.RetryBudgetRuns

namespace DeviceMessaging

open Effect

variable (svc : Service)

variable {svc} {w : World} {id : MessageId} {q : QueueKey} {context : FailureContext}
  {plugin : DeliveryPlugin}

section Example

end Example

end DeviceMessaging
